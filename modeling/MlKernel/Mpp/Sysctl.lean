import MlKernel.Lib.Buckets
import MlKernel.Lib.Refinement
import Mathlib.Algebra.BigOperators.Fin

/-!
# The suspend arbiter

`/dev/ar_sysctl` keeps the services that registered with it as nodes in one list for each priority
and counts the active ones.  Every call runs under one lock.  The lists, the scan for a name and the
running count are an implementation of a map from names to services, over which a suspend is granted
while some service is active.
-/

namespace MlKernel.Mpp

open Buckets

def sysctlMaxPriority : ℕ := 32

/-- The status word. -/
inductive SysctlStatus
  | running | suspend | busy | error
  deriving DecidableEq, Repr

def SysctlStatus.word : SysctlStatus → ℤ
  | running => 0
  | suspend => 1
  | busy => 2
  | error => 3

/-- `EV_EXIT` -/
def evExit : ℤ := 5

structure SysctlMsg where
  name : Vector UInt8 32
  priority : ℤ
  event : ℤ
  deriving DecidableEq

/-- An owner is an open file. -/
structure SysctlNode where
  msg : SysctlMsg
  owner : ℕ
  active : Bool
  deriving DecidableEq

structure Sysctl where
  gPrio : Fin sysctlMaxPriority → List SysctlNode
  gStatus : SysctlStatus
  /-- An `int`, which counts nodes of the lists: memory for them ends long before it wraps. -/
  gActiveCnt : ℤ

/-- `!strncmp(a, b, n)` -/
def strncmpEq : ℕ → List UInt8 → List UInt8 → Bool
  | 0, _, _ => true
  | n + 1, a :: as, b :: bs => if a ≠ b then false else if a = 0 then true else strncmpEq n as bs
  | _ + 1, [], [] => true
  | _ + 1, _, _ => false

/-- The bucket, the place in it and the node of the first node with the name. -/
def nodeFind (gPrio : Fin sysctlMaxPriority → List SysctlNode) (name : Vector UInt8 32) :
    Option (Fin sysctlMaxPriority × ℕ × SysctlNode) :=
  (List.finRange sysctlMaxPriority).findSome? fun i =>
    ((gPrio i).zipIdx.find? fun entry =>
      strncmpEq 32 entry.1.msg.name.toList name.toList).map fun entry => (i, entry.2, entry.1)

/-- `list_del` of the node at a place. -/
def listDel (gPrio : Fin sysctlMaxPriority → List SysctlNode) (i : Fin sysctlMaxPriority) (k : ℕ) :
    Fin sysctlMaxPriority → List SysctlNode :=
  Function.update gPrio i ((gPrio i).eraseIdx k)

def listAddTail (gPrio : Fin sysctlMaxPriority → List SysctlNode) (i : Fin sysctlMaxPriority)
    (n : SysctlNode) : Fin sysctlMaxPriority → List SysctlNode :=
  Function.update gPrio i (gPrio i ++ [n])

def einval : ℤ := -22

def enomem : ℤ := -12

def ebusy : ℤ := -16

def efault : ℤ := -14

/-- `allocated` says whether the allocation of a node succeeds. -/
def scRegister (s : Sysctl) (f : ℕ) (m : SysctlMsg) (allocated : Bool) : ℤ × Sysctl :=
  if inRange : 0 ≤ m.priority ∧ m.priority < sysctlMaxPriority then
    let slot : Fin sysctlMaxPriority := ⟨m.priority.toNat, by omega⟩
    let node : SysctlNode := ⟨m, f, true⟩
    match nodeFind s.gPrio m.name with
    | none =>
        if allocated then
          (0, { s with gPrio := listAddTail s.gPrio slot node, gActiveCnt := s.gActiveCnt + 1 })
        else (enomem, s)
    | some (i, k, n) =>
        let gPrio :=
          -- a new priority moves the node to the bucket it belongs to
          if n.msg.priority ≠ m.priority then listAddTail (listDel s.gPrio i k) slot node
          else Function.update s.gPrio i ((s.gPrio i).set k node)
        (0, { s with
          gPrio := gPrio
          gActiveCnt := if n.active then s.gActiveCnt else s.gActiveCnt + 1 })
  else (einval, s)

def scUnregister (s : Sysctl) (m : SysctlMsg) : ℤ × Sysctl :=
  match nodeFind s.gPrio m.name with
  | none => (einval, s)
  | some (i, k, n) =>
      if n.active then
        (0, { s with
          gPrio := Function.update s.gPrio i ((s.gPrio i).set k { n with active := false })
          gActiveCnt := s.gActiveCnt - 1 })
      else (0, s)

/-- What `sc_lookup_writeback` returns, with what it leaves in the message. -/
def scLookupWriteback (s : Sysctl) (nr : ℕ) (m : SysctlMsg) : ℤ × SysctlMsg × Sysctl :=
  match nodeFind s.gPrio m.name with
  | none => (einval, m, s)
  | some (i, k, n) =>
      if nr = 23 ∧ m.event = evExit then
        (0, m, { s with
          gPrio := listDel s.gPrio i k
          gActiveCnt := if n.active then s.gActiveCnt - 1 else s.gActiveCnt })
      else (1, n.msg, s)

/-- An `ioctl`, with the message that its argument points at.  The copies from and to the caller
and the allocation can fail. -/
structure SysctlCall where
  file : ℕ
  type : Char
  nr : ℕ
  msg : SysctlMsg
  copyIn : Bool
  copyOut : Bool
  allocated : Bool

/-- What the caller gets back: the return value, the message and the status written to it. -/
structure SysctlReply where
  ret : ℤ
  msg : Option SysctlMsg := none
  status : Option ℤ := none
  deriving DecidableEq

def arSysctlIoctl (s : Sysctl) (call : SysctlCall) : SysctlReply × Sysctl :=
  let m := call.msg
  if call.type ≠ 'S' then ({ ret := einval }, s)
  else
    match call.nr with
    | 20 =>
        if call.copyIn then
          let done := scRegister s call.file m call.allocated
          ({ ret := done.1 }, done.2)
        else ({ ret := efault }, s)
    | 21 =>
        if call.copyIn then
          let done := scUnregister s m
          ({ ret := done.1 }, done.2)
        else ({ ret := efault }, s)
    | 22 | 23 =>
        if call.copyIn then
          let (wb, back, next) := scLookupWriteback s call.nr m
          if wb = 1 then
            if call.copyOut then ({ ret := 0, msg := some back }, next)
            else ({ ret := efault }, next)
          else if wb < 0 then ({ ret := wb }, next)
          else ({ ret := 0 }, next)
        else ({ ret := efault }, s)
    | 24 =>
        if call.copyIn then
          if s.gStatus ≠ .running ∨ s.gActiveCnt = 0 then ({ ret := ebusy }, s)
          else ({ ret := 0 }, { s with gStatus := .suspend })
        else ({ ret := efault }, s)
    | 25 =>
        if call.copyIn then
          if s.gStatus ≠ .suspend then ({ ret := ebusy }, s)
          else ({ ret := 0 }, { s with gStatus := .running })
        else ({ ret := efault }, s)
    | 26 =>
        if call.copyOut then ({ ret := 0, status := some s.gStatus.word }, s)
        else ({ ret := efault }, s)
    | _ => ({ ret := einval }, s)

/-- The nodes of the closing file are dropped. -/
def arSysctlRelease (s : Sysctl) (f : ℕ) : Sysctl where
  gPrio i := (s.gPrio i).filter fun n => n.owner ≠ f
  gStatus := s.gStatus
  gActiveCnt := (List.finRange sysctlMaxPriority).foldl (fun count i =>
    (s.gPrio i).foldl (fun count n => if n.owner = f ∧ n.active then count - 1 else count) count)
      s.gActiveCnt

/-- `ar_sysctl_init` -/
def arSysctlInit : Sysctl where
  gPrio _ := []
  gStatus := .running
  gActiveCnt := 0

inductive SysctlEvent
  | ioctl (call : SysctlCall)
  | release (f : ℕ)

def sysctlStep (s : Sysctl) : SysctlEvent → SysctlReply × Sysctl
  | .ioctl call => arSysctlIoctl s call
  | .release f => ({ ret := 0 }, arSysctlRelease s f)

/-! ### The arbiter as a map -/

/-- The name that a message means: what stands before the first zero. -/
def SysctlMsg.key (m : SysctlMsg) : List UInt8 := m.name.toList.takeWhile (· ≠ 0)

def SysctlNode.key (n : SysctlNode) : List UInt8 := n.msg.key

/-- The services by name. -/
structure Arbiter where
  services : List UInt8 → Option SysctlNode
  status : SysctlStatus

def Arbiter.SomeActive (a : Arbiter) : Prop :=
  ∃ name n, a.services name = some n ∧ n.active = true

def Arbiter.put (a : Arbiter) (n : SysctlNode) : Arbiter :=
  { a with services := Function.update a.services n.key (some n) }

def Arbiter.drop (a : Arbiter) (name : List UInt8) : Arbiter :=
  { a with services := Function.update a.services name none }

/-- A name is registered again by whoever calls, under the new priority. -/
def Arbiter.register (a : Arbiter) (f : ℕ) (m : SysctlMsg) (allocated : Bool) : ℤ × Arbiter :=
  if ¬(0 ≤ m.priority ∧ m.priority < sysctlMaxPriority) then (einval, a)
  else if a.services m.key = none ∧ allocated = false then (enomem, a)
  else (0, a.put ⟨m, f, true⟩)

def Arbiter.unregister (a : Arbiter) (m : SysctlMsg) : ℤ × Arbiter :=
  match a.services m.key with
  | none => (einval, a)
  | some n => (0, a.put { n with active := false })

def Arbiter.lookup (a : Arbiter) (call : SysctlCall) : SysctlReply × Arbiter :=
  match a.services call.msg.key with
  | none => ({ ret := einval }, a)
  | some n =>
      if call.nr = 23 ∧ call.msg.event = evExit then ({ ret := 0 }, a.drop call.msg.key)
      else if call.copyOut then ({ ret := 0, msg := some n.msg }, a)
      else ({ ret := efault }, a)

open Classical in
/-- What a call means for the services. -/
noncomputable def Arbiter.ioctl (a : Arbiter) (call : SysctlCall) : SysctlReply × Arbiter :=
  if call.type ≠ 'S' ∨ call.nr < 20 ∨ 26 < call.nr then ({ ret := einval }, a)
  else if call.nr = 26 then
    if call.copyOut then ({ ret := 0, status := some a.status.word }, a)
    else ({ ret := efault }, a)
  else if call.copyIn = false then ({ ret := efault }, a)
  else if call.nr = 20 then
    let done := a.register call.file call.msg call.allocated
    ({ ret := done.1 }, done.2)
  else if call.nr = 21 then
    let done := a.unregister call.msg
    ({ ret := done.1 }, done.2)
  else if call.nr = 22 ∨ call.nr = 23 then a.lookup call
  else if call.nr = 24 then
    if a.status = .running ∧ a.SomeActive then ({ ret := 0 }, { a with status := .suspend })
    else ({ ret := ebusy }, a)
  else if a.status = .suspend then ({ ret := 0 }, { a with status := .running })
  else ({ ret := ebusy }, a)

/-- A closing file takes its services with it. -/
def Arbiter.release (a : Arbiter) (f : ℕ) : Arbiter :=
  { a with services := fun name => (a.services name).filter fun n => n.owner ≠ f }

noncomputable def Arbiter.step (a : Arbiter) : SysctlEvent → SysctlReply × Arbiter
  | .ioctl call => a.ioctl call
  | .release f => ({ ret := 0 }, a.release f)

def Arbiter.init : Arbiter := ⟨fun _ => none, .running⟩

/-- The lists represent the services, every node lies in the list of its priority, the count is the
number of active services, and the arbiter is running or suspended. -/
structure SysctlRefines (s : Sysctl) (a : Arbiter) : Prop where
  represents : Represents SysctlNode.key (contents s.gPrio) a.services
  bucketed : ∀ i, ∀ n ∈ s.gPrio i, n.msg.priority = i
  count : s.gActiveCnt = (contents s.gPrio).countP fun n => n.active = true
  status : s.gStatus = a.status
  settled : s.gStatus = .running ∨ s.gStatus = .suspend

/-! ### Names -/

theorem strncmpEq_iff : ∀ (n : ℕ) (as bs : List UInt8), as.length = n → bs.length = n →
    (strncmpEq n as bs = true ↔ as.takeWhile (· ≠ 0) = bs.takeWhile (· ≠ 0))
  | 0, [], [], _, _ => by simp [strncmpEq]
  | n + 1, a :: as, b :: bs, lengthA, lengthB => by
      have rest := strncmpEq_iff n as bs (by simpa using lengthA) (by simpa using lengthB)
      by_cases same : a = b
      · subst same
        by_cases stop : a = 0
        · simp [strncmpEq, stop]
        · simpa [strncmpEq, stop, List.takeWhile_cons] using rest
      · by_cases stopA : a = 0
        · subst stopA
          have stopB : b ≠ 0 := Ne.symm same
          simp [strncmpEq, same, stopB]
        · by_cases stopB : b = 0
          · subst stopB
            simp [strncmpEq, same]
          · simp [strncmpEq, same, stopA, stopB]

section Find

variable {gPrio : Fin sysctlMaxPriority → List SysctlNode} {name : Vector UInt8 32}
  {i : Fin sysctlMaxPriority} {k : ℕ} {n : SysctlNode}

/-- The comparison of a node's name. -/
theorem named_iff (n : SysctlNode) (m : SysctlMsg) :
    strncmpEq 32 n.msg.name.toList m.name.toList = true ↔ n.key = m.key :=
  strncmpEq_iff 32 _ _ (by simp) (by simp)

theorem nodeFind_eq_some {m : SysctlMsg} (found : nodeFind gPrio m.name = some (i, k, n)) :
    (gPrio i)[k]? = some n ∧ n.key = m.key := by
  rcases List.exists_of_findSome?_eq_some found with ⟨j, -, inBucket⟩
  rcases Option.map_eq_some_iff.mp inBucket with ⟨⟨node, place⟩, first, same⟩
  simp only [Prod.mk.injEq] at same
  rcases same with ⟨rfl, rfl, rfl⟩
  have member := List.mem_of_find?_eq_some first
  have named := List.find?_some first
  exact ⟨List.mem_zipIdx_iff_getElem?.mp member, (named_iff _ m).mp named⟩

theorem nodeFind_eq_none {m : SysctlMsg} (missing : nodeFind gPrio m.name = none) :
    ∀ n ∈ contents gPrio, n.key ≠ m.key := by
  intro n member same
  rcases mem_contents.mp member with ⟨i, inBucket⟩
  have none := List.findSome?_eq_none_iff.mp missing i (List.mem_finRange i)
  rw [Option.map_eq_none_iff, List.find?_eq_none] at none
  rcases List.mem_iff_getElem?.mp inBucket with ⟨k, here⟩
  exact none (n, k) (List.mem_zipIdx_iff_getElem?.mpr here) ((named_iff n m).mpr same)

end Find

/-! ### Each operation -/

section Operations

variable {s : Sysctl} {a : Arbiter} {m : SysctlMsg} {i : Fin sysctlMaxPriority} {k : ℕ}
  {n : SysctlNode}

theorem SysctlRefines.found (refines : SysctlRefines s a)
    (found : nodeFind s.gPrio m.name = some (i, k, n)) : a.services m.key = some n := by
  rcases nodeFind_eq_some found with ⟨here, named⟩
  rw [refines.represents.mem_iff]
  exact ⟨mem_contents.mpr ⟨i, List.mem_of_getElem? here⟩, named⟩

theorem SysctlRefines.missing (refines : SysctlRefines s a)
    (missing : nodeFind s.gPrio m.name = none) : a.services m.key = none :=
  refines.represents.eq_none_iff.mpr (nodeFind_eq_none missing)

theorem bucketed_update {gPrio : Fin sysctlMaxPriority → List SysctlNode}
    (bucketed : ∀ i, ∀ n ∈ gPrio i, n.msg.priority = i) {items : List SysctlNode}
    (fits : ∀ n ∈ items, n.msg.priority = i) :
    ∀ j, ∀ n ∈ Function.update gPrio i items j, n.msg.priority = j := by
  intro j n member
  by_cases here : j = i
  · subst here
    rw [Function.update_self] at member
    exact fits n member
  · rw [Function.update_of_ne here] at member
    exact bucketed j n member

theorem bucketed_listDel {gPrio : Fin sysctlMaxPriority → List SysctlNode}
    (bucketed : ∀ i, ∀ n ∈ gPrio i, n.msg.priority = i) :
    ∀ j, ∀ n ∈ listDel gPrio i k j, n.msg.priority = j :=
  bucketed_update bucketed fun n member => bucketed i n (List.mem_of_mem_eraseIdx member)

theorem bucketed_listAddTail {gPrio : Fin sysctlMaxPriority → List SysctlNode}
    (bucketed : ∀ i, ∀ n ∈ gPrio i, n.msg.priority = i) (fits : n.msg.priority = i) :
    ∀ j, ∀ other ∈ listAddTail gPrio i n j, other.msg.priority = j := by
  unfold listAddTail
  apply bucketed_update bucketed
  intro other member
  rcases List.mem_append.mp member with old | new
  · exact bucketed i other old
  · rw [List.mem_singleton.mp new]
    exact fits

/-- A service that was not there. -/
theorem SysctlRefines.add (refines : SysctlRefines s a) (fresh : a.services n.key = none)
    (fits : n.msg.priority = i) (active : n.active = true) :
    SysctlRefines
      { s with gPrio := listAddTail s.gPrio i n, gActiveCnt := s.gActiveCnt + 1 } (a.put n) where
  represents := by
    unfold listAddTail
    rw [contents_append]
    exact refines.represents.insert fresh
  bucketed := bucketed_listAddTail refines.bucketed fits
  count := by
    unfold listAddTail
    rw [contents_append, Multiset.countP_cons, if_pos active, refines.count]
    push_cast
    rfl
  status := refines.status
  settled := refines.settled

/-- A node that takes the place of another with its name, in whatever list. -/
theorem SysctlRefines.swap (refines : SysctlRefines s a) (here : (s.gPrio i)[k]? = some n)
    {new : SysctlNode} (sameKey : new.key = n.key)
    {gPrio : Fin sysctlMaxPriority → List SysctlNode}
    (swapped : contents gPrio = new ::ₘ contents (listDel s.gPrio i k))
    (bucketed : ∀ i, ∀ n ∈ gPrio i, n.msg.priority = i) {count : ℤ}
    (counted : count + ((if n.active = true then 1 else 0 : ℕ) : ℤ) =
      s.gActiveCnt + ((if new.active = true then 1 else 0 : ℕ) : ℤ)) :
    SysctlRefines { s with gPrio := gPrio, gActiveCnt := count } (a.put new) := by
  have taken : n ::ₘ contents (listDel s.gPrio i k) = contents s.gPrio := contents_eraseIdx here
  have held := refines.represents
  have counts := refines.count
  rw [← taken] at held
  rw [← taken, Multiset.countP_cons] at counts
  refine ⟨?_, bucketed, ?_, refines.status, refines.settled⟩
  · rw [swapped]
    exact held.replace sameKey
  · simp only [swapped, Multiset.countP_cons]
    omega

theorem SysctlRefines.delete (refines : SysctlRefines s a) (here : (s.gPrio i)[k]? = some n) :
    SysctlRefines
      { s with
        gPrio := listDel s.gPrio i k
        gActiveCnt := if n.active then s.gActiveCnt - 1 else s.gActiveCnt } (a.drop n.key) := by
  have taken : n ::ₘ contents (listDel s.gPrio i k) = contents s.gPrio := contents_eraseIdx here
  have held := refines.represents
  have counts := refines.count
  rw [← taken] at held
  rw [← taken, Multiset.countP_cons] at counts
  refine ⟨held.remove, bucketed_listDel refines.bucketed, ?_, refines.status, refines.settled⟩
  dsimp only
  split at counts
  · next active =>
      rw [if_pos active, counts]
      push_cast
      omega
  · next idle => rw [if_neg idle, counts, Nat.add_zero]

/-- `sc_register` -/
theorem SysctlRefines.scRegister (refines : SysctlRefines s a) (f : ℕ) (m : SysctlMsg)
    (allocated : Bool) :
    (scRegister s f m allocated).1 = (a.register f m allocated).1 ∧
      SysctlRefines (scRegister s f m allocated).2 (a.register f m allocated).2 := by
  by_cases inRange : 0 ≤ m.priority ∧ m.priority < sysctlMaxPriority
  · have fits : m.priority = ((⟨m.priority.toNat, by omega⟩ : Fin sysctlMaxPriority) : ℕ) := by
      exact (Int.toNat_of_nonneg inRange.1).symm
    simp only [Mpp.scRegister, Arbiter.register, inRange, dif_pos, not_true, if_false, and_self]
    split
    · next none =>
        have fresh := refines.missing none
        cases allocated
        · simp only [fresh, Bool.false_eq_true, if_false, and_self, if_true]
          exact ⟨trivial, refines⟩
        · simp only [fresh, if_true, Bool.true_eq_false, and_false, if_false]
          exact ⟨trivial, refines.add fresh fits rfl⟩
    · next i k n found =>
        have held := refines.found found
        rcases nodeFind_eq_some found with ⟨here, named⟩
        simp only [held, reduceCtorEq, false_and, if_false]
        have sameKey : (⟨m, f, true⟩ : SysctlNode).key = n.key := named.symm
        refine ⟨trivial, refines.swap here sameKey ?_ ?_ ?_⟩
        · split
          · exact contents_append _ _
          · exact contents_set here _
        · split
          · exact bucketed_listAddTail (bucketed_listDel refines.bucketed) fits
          · next samePriority =>
              apply bucketed_update refines.bucketed
              intro other member
              rcases List.mem_or_eq_of_mem_set member with old | rfl
              · exact refines.bucketed i other old
              · rw [← not_not.mp samePriority]
                exact refines.bucketed i n (List.mem_of_getElem? here)
        · cases n.active
          · simp
          · simp
  · simp only [Mpp.scRegister, Arbiter.register, inRange, dif_neg, not_false_eq_true, if_true]
    exact ⟨trivial, refines⟩

/-- `sc_unregister` -/
theorem SysctlRefines.scUnregister (refines : SysctlRefines s a) (m : SysctlMsg) :
    (scUnregister s m).1 = (a.unregister m).1 ∧
      SysctlRefines (scUnregister s m).2 (a.unregister m).2 := by
  unfold Mpp.scUnregister Arbiter.unregister
  split
  · next none => simpa only [refines.missing none, true_and] using refines
  · next i k n found =>
      rcases nodeFind_eq_some found with ⟨here, -⟩
      have sameKey : ({ n with active := false } : SysctlNode).key = n.key := rfl
      simp only [refines.found found]
      split
      · next active =>
          refine ⟨rfl, refines.swap here sameKey (contents_set here _) ?_ (by simp [active])⟩
          apply bucketed_update refines.bucketed
          intro other member
          rcases List.mem_or_eq_of_mem_set member with old | rfl
          · exact refines.bucketed i other old
          · exact refines.bucketed i n (List.mem_of_getElem? here)
      · next idle =>
          -- a node that is not active is written back as it was
          have same : ({ n with active := false } : SysctlNode) = n := by
            rw [← (Bool.not_eq_true _).mp idle]
          have held : a.services n.key = some n :=
            (refines.represents.mem_iff _ _).mpr
              ⟨mem_contents.mpr ⟨i, List.mem_of_getElem? here⟩, rfl⟩
          have unchanged : a.put n = a := by
            rw [Arbiter.put, ← held, Function.update_eq_self]
          rw [same, unchanged]
          exact ⟨rfl, refines⟩

/-- `sc_lookup_writeback`, with the copy back to the caller. -/
theorem SysctlRefines.lookup (refines : SysctlRefines s a) {call : SysctlCall}
    (nr : call.nr = 22 ∨ call.nr = 23) (type : call.type = 'S') (copyIn : call.copyIn = true) :
    (arSysctlIoctl s call).1 = (a.lookup call).1 ∧
      SysctlRefines (arSysctlIoctl s call).2 (a.lookup call).2 := by
  have body : arSysctlIoctl s call =
      let (wb, back, next) := scLookupWriteback s call.nr call.msg
      if wb = 1 then
        if call.copyOut then ({ ret := 0, msg := some back }, next)
        else ({ ret := efault }, next)
      else if wb < 0 then ({ ret := wb }, next)
      else ({ ret := 0 }, next) := by
    rcases nr with nr | nr <;> simp [arSysctlIoctl, nr, type, copyIn]
  rw [body]
  unfold scLookupWriteback Arbiter.lookup
  cases found : nodeFind s.gPrio call.msg.name with
  | none => simpa [refines.missing found, einval] using refines
  | some place =>
      rcases place with ⟨i, k, n⟩
      rcases nodeFind_eq_some found with ⟨here, named⟩
      simp only [refines.found found]
      by_cases exits : call.nr = 23 ∧ call.msg.event = evExit
      · rw [if_pos exits, if_pos exits]
        have deleted := refines.delete here
        rw [named] at deleted
        exact ⟨rfl, deleted⟩
      · rw [if_neg exits, if_neg exits]
        cases call.copyOut
        · exact ⟨rfl, refines⟩
        · exact ⟨rfl, refines⟩

/-- The count has been positive exactly when some service is active. -/
theorem SysctlRefines.someActive_iff (refines : SysctlRefines s a) :
    a.SomeActive ↔ s.gActiveCnt ≠ 0 := by
  rw [refines.count, Ne, Int.natCast_eq_zero, Multiset.countP_eq_zero]
  push Not
  constructor
  · rintro ⟨name, n, held, active⟩
    exact ⟨n, ((refines.represents.mem_iff name n).mp held).1, active⟩
  · rintro ⟨n, member, active⟩
    exact ⟨n.key, n, (refines.represents.mem_iff _ _).mpr ⟨member, rfl⟩, active⟩

/-- Numbers outside the table, and other types of call. -/
theorem arSysctlIoctl_unknown {call : SysctlCall}
    (unknown : call.type ≠ 'S' ∨ call.nr < 20 ∨ 26 < call.nr) :
    arSysctlIoctl s call = ({ ret := einval }, s) := by
  unfold arSysctlIoctl
  by_cases type : call.type = 'S'
  · have outside : call.nr < 20 ∨ 26 < call.nr := unknown.resolve_left (not_not.mpr type)
    rw [if_neg (not_not.mpr type)]
    split
    all_goals first
      | rfl
      | omega
  · rw [if_pos type]

theorem SysctlRefines.ioctl (refines : SysctlRefines s a) (call : SysctlCall) :
    (arSysctlIoctl s call).1 = (a.ioctl call).1 ∧
      SysctlRefines (arSysctlIoctl s call).2 (a.ioctl call).2 := by
  by_cases unknown : call.type ≠ 'S' ∨ call.nr < 20 ∨ 26 < call.nr
  · rw [arSysctlIoctl_unknown unknown, Arbiter.ioctl, if_pos unknown]
    exact ⟨rfl, refines⟩
  · have type : call.type = 'S' := by
      by_contra other
      exact unknown (.inl other)
    have numbers : call.nr = 20 ∨ call.nr = 21 ∨ (call.nr = 22 ∨ call.nr = 23) ∨ call.nr = 24 ∨
        call.nr = 25 ∨ call.nr = 26 := by omega
    rw [Arbiter.ioctl, if_neg unknown]
    rcases numbers with nr | nr | nr | nr | nr | nr
    · -- `REGISTER`
      have registered := refines.scRegister call.file call.msg call.allocated
      cases copyIn : call.copyIn
      · simpa [arSysctlIoctl, nr, type, copyIn] using refines
      · simpa [arSysctlIoctl, nr, type, copyIn] using registered
    · -- `UNREGISTER`
      have unregistered := refines.scUnregister call.msg
      cases copyIn : call.copyIn
      · simpa [arSysctlIoctl, nr, type, copyIn] using refines
      · simpa [arSysctlIoctl, nr, type, copyIn] using unregistered
    · cases copyIn : call.copyIn
      · rcases nr with nr | nr
        · simpa [arSysctlIoctl, nr, type, copyIn] using refines
        · simpa [arSysctlIoctl, nr, type, copyIn] using refines
      · have looked := refines.lookup nr type copyIn
        rcases nr with nr | nr
        · simpa [nr] using looked
        · simpa [nr] using looked
    · -- `SUSPEND`
      have active := refines.someActive_iff
      have status := refines.status
      cases copyIn : call.copyIn
      · simpa [arSysctlIoctl, nr, type, copyIn] using refines
      · by_cases granted : a.status = .running ∧ a.SomeActive
        · have runs : ¬(s.gStatus ≠ .running ∨ s.gActiveCnt = 0) := by
            rw [status, not_or, not_not]
            exact ⟨granted.1, active.mp granted.2⟩
          simp only [arSysctlIoctl, nr, type, copyIn, granted, runs, if_true, if_false]
          simp only [ne_eq, not_true, if_false, Nat.reduceEqDiff, Bool.true_eq_false, or_self]
          exact ⟨rfl, refines.represents, refines.bucketed, refines.count, rfl, .inr rfl⟩
        · have busy : s.gStatus ≠ .running ∨ s.gActiveCnt = 0 := by
            rw [status]
            by_contra neither
            rw [not_or, not_not] at neither
            exact granted ⟨neither.1, active.mpr neither.2⟩
          simpa [arSysctlIoctl, nr, type, copyIn, granted, busy] using refines
    · -- `FAST_RESUME`
      have status := refines.status
      cases copyIn : call.copyIn
      · simpa [arSysctlIoctl, nr, type, copyIn] using refines
      · by_cases suspended : a.status = .suspend
        · simp only [arSysctlIoctl, nr, type, copyIn, status, suspended, ne_eq, not_true, if_false,
            if_true, Nat.reduceEqDiff, Bool.true_eq_false, or_self]
          exact ⟨trivial, refines.represents, refines.bucketed, refines.count, rfl, .inl rfl⟩
        · simpa [arSysctlIoctl, nr, type, copyIn, status, suspended] using refines
    · -- `QUERY_STATUS`
      have status := refines.status
      cases copyOut : call.copyOut
      · simpa [arSysctlIoctl, nr, type, copyOut] using refines
      · simpa [arSysctlIoctl, nr, type, copyOut, status] using refines

theorem foldl_count (p : SysctlNode → Bool) (nodes : List SysctlNode) (count : ℤ) :
    nodes.foldl (fun count n => if p n then count - 1 else count) count =
      count - nodes.countP p := by
  induction nodes generalizing count with
  | nil => simp
  | cons n nodes ih =>
      rw [List.foldl_cons, ih, List.countP_cons]
      split
      · push_cast
        omega
      · simp

/-- What the scan of a closing file takes off the count. -/
theorem release_count (s : Sysctl) (f : ℕ) :
    (arSysctlRelease s f).gActiveCnt =
      s.gActiveCnt - (contents s.gPrio).countP fun n => n.owner = f ∧ n.active = true := by
  have outer : ∀ (slots : List (Fin sysctlMaxPriority)) (count : ℤ),
      slots.foldl (fun count i => (s.gPrio i).foldl
        (fun count n => if n.owner = f ∧ n.active then count - 1 else count) count) count =
      count - (slots.map fun i =>
        (s.gPrio i).countP fun n => n.owner = f ∧ n.active = true).sum := by
    intro slots
    induction slots with
    | nil => simp
    | cons i slots ih =>
        intro count
        have inner := foldl_count (fun n => n.owner = f ∧ n.active = true) (s.gPrio i) count
        simp only [decide_eq_true_eq] at inner
        rw [List.foldl_cons, ih, inner, List.map_cons, List.sum_cons]
        push_cast
        omega
  rw [countP_contents, Fin.sum_univ_def]
  exact outer _ _

theorem SysctlRefines.release (refines : SysctlRefines s a) (f : ℕ) :
    SysctlRefines (arSysctlRelease s f) (a.release f) where
  represents := by
    unfold arSysctlRelease Arbiter.release
    rw [contents_filter]
    exact refines.represents.filter fun n => n.owner ≠ f
  bucketed i n member := refines.bucketed i n (List.mem_filter.mp member).1
  count := by
    have split := (contents s.gPrio).countP_eq_countP_filter_add
      (fun n => n.active = true) (fun n => (decide (n.owner ≠ f)) = true)
    have kept : contents (arSysctlRelease s f).gPrio =
        (contents s.gPrio).filter fun n => decide (n.owner ≠ f) = true := contents_filter _
    have dropped : ((contents s.gPrio).filter fun n => ¬decide (n.owner ≠ f) = true).countP
        (fun n => n.active = true) =
          (contents s.gPrio).countP fun n => n.owner = f ∧ n.active = true := by
      rw [Multiset.countP_filter]
      apply Multiset.countP_congr rfl
      intro n _
      simp [and_comm]
    rw [release_count, kept, refines.count, split, dropped]
    push_cast
    omega
  status := refines.status
  settled := refines.settled

end Operations

/-! ### Every run -/

theorem sysctlRefines_init : SysctlRefines arSysctlInit Arbiter.init where
  represents := by
    have none : contents arSysctlInit.gPrio = 0 := by simp [contents, arSysctlInit]
    rw [none]
    exact Represents.empty
  bucketed := by simp [arSysctlInit]
  count := by simp [contents, arSysctlInit]
  status := rfl
  settled := .inl rfl

/-- Over every run of calls and of closing files, whatever copies and allocations fail, the callers
get what the map of services gives them, and the lists represent that map. -/
theorem sysctl_refines_arbiter (events : List SysctlEvent) :
    (Refinement.run sysctlStep arSysctlInit events).1 =
        (Refinement.run Arbiter.step Arbiter.init events).1 ∧
      SysctlRefines (Refinement.run sysctlStep arSysctlInit events).2
        (Refinement.run Arbiter.step Arbiter.init events).2 := by
  have simulates : Refinement.Simulates sysctlStep Arbiter.step SysctlRefines := by
    intro s a event refines
    cases event with
    | ioctl call => exact refines.ioctl call
    | release f => exact ⟨rfl, refines.release f⟩
  exact simulates.run sysctlRefines_init events

end MlKernel.Mpp

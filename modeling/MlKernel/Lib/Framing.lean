import Mathlib.Data.List.Basic
import Mathlib.Tactic.Common

/-!
# Resynchronising stream framing

A stream of symbols carries self-delimiting frames.  A frame starts with a
recognisable first symbol and a header of fixed length, and the header, when it
is acceptable, announces the length of the whole frame.  A receiver that has
lost its place looks for the next symbol that can start a frame and trusts it
only when the header that follows is acceptable.

`Format.scan` is the meaning of such a stream: the complete frames in it and
the unfinished tail a receiver has to keep for later.  Its central law is
`Format.scan_append`: a scan can be interrupted anywhere and resumed with the
tail it left, so an incremental receiver that keeps exactly this tail does not
depend on how the stream was cut (`Format.feedAll_eq_scan`).  The second half of the
file says which symbols may be dropped without changing the frames found.
-/

namespace Framing

universe u

/-- A frame format: the first symbol, the header length, and the frame length an
acceptable header announces. -/
structure Format (Symbol : Type u) where
  /-- The symbols a frame can start with. -/
  marker : Symbol → Bool
  /-- The number of symbols needed to judge a header. -/
  headerLength : ℕ
  /-- The length of the frame starting here, if its header is acceptable. -/
  announced : List Symbol → Option ℕ
  headerLength_pos : 0 < headerLength
  /-- A frame is at least as long as its header. -/
  headerLength_le_announced : ∀ {stream length}, announced stream = some length →
    headerLength ≤ length
  /-- Only the header decides. -/
  announced_append : ∀ {stream} (later : List Symbol), headerLength ≤ stream.length →
    announced (stream ++ later) = announced stream

namespace Format

variable {Symbol : Type u} (format : Format Symbol)

/-- The complete frames of a stream, and the unfinished tail behind them. -/
def scan (stream : List Symbol) : List (List Symbol) × List Symbol :=
  match stream with
  | [] => ([], [])
  | first :: tail =>
      if format.marker first = false then scan tail
      else if (first :: tail).length < format.headerLength then ([], first :: tail)
      else
        match _announcement : format.announced (first :: tail) with
        | none => scan tail
        | some length =>
            if length ≤ (first :: tail).length then
              let (frames, rest) := scan ((first :: tail).drop length)
              ((first :: tail).take length :: frames, rest)
            else ([], first :: tail)
termination_by stream.length
decreasing_by
  · simp
  · simp
  · have := format.headerLength_pos
    have := format.headerLength_le_announced _announcement
    simp only [List.length_drop, List.length_cons]
    omega

@[simp]
theorem scan_nil : format.scan [] = ([], []) := by
  rw [scan]

theorem scan_cons_of_not_marker {first : Symbol} {tail : List Symbol}
    (notMarker : format.marker first = false) :
    format.scan (first :: tail) = format.scan tail := by
  rw [scan, if_pos notMarker]

theorem scan_of_short {first : Symbol} {tail : List Symbol}
    (marked : format.marker first = true)
    (short : (first :: tail).length < format.headerLength) :
    format.scan (first :: tail) = ([], first :: tail) := by
  rw [scan, if_neg (by simp [marked]), if_pos short]

theorem scan_of_rejected {first : Symbol} {tail : List Symbol}
    (complete : format.headerLength ≤ (first :: tail).length)
    (rejected : format.announced (first :: tail) = none) :
    format.scan (first :: tail) = format.scan tail := by
  cases marked : format.marker first with
  | false => exact format.scan_cons_of_not_marker marked
  | true =>
      rw [scan, if_neg (by simp [marked]), if_neg (by omega)]
      split
      · rfl
      · rename_i length announcement
        rw [rejected] at announcement
        cases announcement

theorem scan_of_unfinished {first : Symbol} {tail : List Symbol} {length : ℕ}
    (marked : format.marker first = true)
    (announcement : format.announced (first :: tail) = some length)
    (unfinished : (first :: tail).length < length) :
    format.scan (first :: tail) = ([], first :: tail) := by
  by_cases short : (first :: tail).length < format.headerLength
  · exact format.scan_of_short marked short
  · rw [scan, if_neg (by simp [marked]), if_neg short]
    split
    · rename_i rejected
      rw [rejected] at announcement
      cases announcement
    · rename_i other otherAnnouncement
      rw [announcement] at otherAnnouncement
      cases otherAnnouncement
      rw [if_neg (by omega)]

theorem scan_of_frame {first : Symbol} {tail : List Symbol} {length : ℕ}
    (marked : format.marker first = true)
    (announcement : format.announced (first :: tail) = some length)
    (complete : length ≤ (first :: tail).length) :
    format.scan (first :: tail) =
      ((first :: tail).take length :: (format.scan ((first :: tail).drop length)).1,
        (format.scan ((first :: tail).drop length)).2) := by
  have headerFits := format.headerLength_le_announced announcement
  rw [scan, if_neg (by simp [marked]), if_neg (by omega)]
  split
  · rename_i rejected
    rw [rejected] at announcement
    cases announcement
  · rename_i other otherAnnouncement
    rw [announcement] at otherAnnouncement
    cases otherAnnouncement
    rw [if_pos complete]

/-- A scan may be interrupted anywhere and resumed with the tail it left. -/
theorem scan_append (stream later : List Symbol) :
    format.scan (stream ++ later) =
      ((format.scan stream).1 ++ (format.scan ((format.scan stream).2 ++ later)).1,
        (format.scan ((format.scan stream).2 ++ later)).2) := by
  fun_induction format.scan stream with
  | case1 => simp
  | case2 first tail notMarker ih =>
      rw [List.cons_append, format.scan_cons_of_not_marker notMarker]
      exact ih
  | case3 first tail marked short => simp
  | case4 first tail marked complete rejected ih =>
      have stillRejected : format.announced (first :: (tail ++ later)) = none := by
        rw [← List.cons_append, format.announced_append later (by omega)]
        exact rejected
      rw [List.cons_append, format.scan_of_rejected (by simp at complete ⊢; omega) stillRejected]
      exact ih
  | case5 first tail marked complete length announcement fits frames rest scanned ih =>
      have stillAnnounced : format.announced (first :: (tail ++ later)) = some length := by
        rw [← List.cons_append, format.announced_append later (by omega)]
        exact announcement
      have marked : format.marker first = true := by simpa using marked
      rw [List.cons_append,
        format.scan_of_frame marked stillAnnounced (by simp at fits ⊢; omega)]
      rw [← List.cons_append, List.take_append_of_le_length fits,
        List.drop_append_of_le_length fits, ih]
      simp [scanned]
  | case6 first tail marked complete length announcement unfinished => simp

/-! ### Incremental receivers -/

def feed (pending : List Symbol) (chunk : List Symbol) : List (List Symbol) × List Symbol :=
  format.scan (pending ++ chunk)

/-- The frames that receiver emits over a whole sequence of chunks. -/
def feedAll (pending : List Symbol) : List (List Symbol) → List (List Symbol) × List Symbol
  | [] => ([], pending)
  | chunk :: chunks =>
      let (frames, pending) := format.feed pending chunk
      let (later, pending) := feedAll pending chunks
      (frames ++ later, pending)

/-- A tail a scan can leave: scanning it again finds nothing in it. -/
def Unfinished (pending : List Symbol) : Prop :=
  format.scan pending = ([], pending)

theorem unfinished_scan (stream : List Symbol) : format.Unfinished (format.scan stream).2 := by
  unfold Unfinished
  fun_induction format.scan stream with
  | case1 => simp
  | case2 first tail notMarker ih => exact ih
  | case3 first tail marked short =>
      exact format.scan_of_short (by simpa using marked) short
  | case4 first tail marked complete rejected ih => exact ih
  | case5 first tail marked complete length announcement fits frames rest scanned ih =>
      simpa [scanned] using ih
  | case6 first tail marked complete length announcement unfinished =>
      exact format.scan_of_unfinished (by simpa using marked) announcement (by omega)

/-- How a stream is cut does not matter to a receiver that keeps the unfinished tail. -/
theorem feedAll_eq_scan {pending : List Symbol} (unfinished : format.Unfinished pending)
    (chunks : List (List Symbol)) :
    format.feedAll pending chunks = format.scan (pending ++ chunks.flatten) := by
  induction chunks generalizing pending with
  | nil => simpa [feedAll] using unfinished.symm
  | cons chunk chunks ih =>
      simp only [feedAll, feed, List.flatten_cons]
      rw [ih (format.unfinished_scan _), ← List.append_assoc,
        format.scan_append (pending ++ chunk) chunks.flatten]

/-! ### Symbols that can be dropped -/

theorem scan_fst_of_short {stream : List Symbol}
    (short : stream.length < format.headerLength) : (format.scan stream).1 = [] := by
  induction stream with
  | nil => simp
  | cons first tail ih =>
      cases marked : format.marker first with
      | false =>
          rw [format.scan_cons_of_not_marker marked]
          exact ih (by simp at short; omega)
      | true => rw [format.scan_of_short marked short]

/-- The stream starts with a complete and acceptable header. -/
def Accepts (stream : List Symbol) : Prop :=
  stream.head?.any format.marker = true ∧
    format.headerLength ≤ stream.length ∧ (format.announced stream).isSome = true

instance (stream : List Symbol) : Decidable (format.Accepts stream) :=
  inferInstanceAs (Decidable (_ ∧ _ ∧ _))

theorem announced_eq_none_of_not_accepts {first : Symbol} {tail : List Symbol}
    (marked : format.marker first = true)
    (complete : format.headerLength ≤ (first :: tail).length)
    (notAccepted : ¬format.Accepts (first :: tail)) : format.announced (first :: tail) = none := by
  by_contra accepted
  exact notAccepted ⟨marked, complete, Option.isSome_iff_ne_none.mpr accepted⟩

/-- Symbols at which no acceptable header stands can be dropped. -/
theorem scan_fst_drop {stream : List Symbol} {count : ℕ}
    (hidesNone : ∀ offset < count, ¬format.Accepts (stream.drop offset)) :
    (format.scan stream).1 = (format.scan (stream.drop count)).1 := by
  induction count generalizing stream with
  | zero => simp
  | succ count ih =>
      cases stream with
      | nil => simp
      | cons first tail =>
          have tailHidesNone : ∀ offset < count, ¬format.Accepts (tail.drop offset) := by
            intro offset offset_lt
            simpa using hidesNone (offset + 1) (by omega)
          rw [List.drop_succ_cons, ← ih tailHidesNone]
          cases marked : format.marker first with
          | false => rw [format.scan_cons_of_not_marker marked]
          | true =>
              by_cases short : (first :: tail).length < format.headerLength
              · rw [format.scan_fst_of_short short,
                  format.scan_fst_of_short (by simp at short; omega)]
              · have rejected := format.announced_eq_none_of_not_accepts marked
                  (Nat.le_of_not_lt short) (hidesNone 0 (by omega))
                rw [format.scan_of_rejected (by omega) rejected]

/-- The offsets at which a scan meets a marker whose complete header it turns down. -/
def rejections (position : ℕ) (stream : List Symbol) : List ℕ :=
  match stream with
  | [] => []
  | first :: tail =>
      if format.marker first = false then rejections (position + 1) tail
      else if (first :: tail).length < format.headerLength then []
      else
        match _announcement : format.announced (first :: tail) with
        | none => position :: rejections (position + 1) tail
        | some length =>
            if length ≤ (first :: tail).length then
              rejections (position + length) ((first :: tail).drop length)
            else []
termination_by stream.length
decreasing_by
  · simp
  · simp
  · have := format.headerLength_pos
    have := format.headerLength_le_announced _announcement
    simp only [List.length_drop, List.length_cons]
    omega

theorem rejections_cons_of_not_marker {position : ℕ} {first : Symbol} {tail : List Symbol}
    (notMarker : format.marker first = false) :
    format.rejections position (first :: tail) = format.rejections (position + 1) tail := by
  rw [rejections, if_pos notMarker]

theorem rejections_of_rejected {position : ℕ} {first : Symbol} {tail : List Symbol}
    (marked : format.marker first = true)
    (complete : format.headerLength ≤ (first :: tail).length)
    (rejected : format.announced (first :: tail) = none) :
    format.rejections position (first :: tail) =
      position :: format.rejections (position + 1) tail := by
  rw [rejections, if_neg (by simp [marked]), if_neg (by omega)]
  split
  · rfl
  · rename_i length announcement
    rw [rejected] at announcement
    cases announcement

theorem rejections_of_frame {position : ℕ} {first : Symbol} {tail : List Symbol} {length : ℕ}
    (marked : format.marker first = true)
    (announcement : format.announced (first :: tail) = some length)
    (complete : length ≤ (first :: tail).length) :
    format.rejections position (first :: tail) =
      format.rejections (position + length) ((first :: tail).drop length) := by
  have headerFits := format.headerLength_le_announced announcement
  rw [rejections, if_neg (by simp [marked]), if_neg (by omega)]
  split
  · rename_i rejected
    rw [rejected] at announcement
    cases announcement
  · rename_i other otherAnnouncement
    rw [announcement] at otherAnnouncement
    cases otherAnnouncement
    rw [if_pos complete]

theorem rejections_of_short {position : ℕ} {stream : List Symbol}
    (short : stream.length < format.headerLength) : format.rejections position stream = [] := by
  induction stream generalizing position with
  | nil => rw [rejections]
  | cons first tail ih =>
      cases marked : format.marker first with
      | false =>
          rw [format.rejections_cons_of_not_marker marked]
          exact ih (by simp at short; omega)
      | true => rw [rejections, if_neg (by simp [marked]), if_pos short]

theorem length_scan_snd_le (stream : List Symbol) :
    (format.scan stream).2.length ≤ stream.length := by
  fun_induction format.scan stream with
  | case1 => simp
  | case2 first tail notMarker ih => simp only [List.length_cons]; omega
  | case3 first tail marked short => simp
  | case4 first tail marked complete rejected ih => simp only [List.length_cons]; omega
  | case5 first tail marked complete length announcement fits frames rest scanned ih =>
      simp only [scanned, List.length_drop] at ih
      change rest.length ≤ (first :: tail).length
      omega
  | case6 first tail marked complete length announcement unfinished => simp

/-- The tail a scan leaves is a suffix of its stream. -/
theorem drop_scan_snd (stream : List Symbol) :
    stream.drop (stream.length - (format.scan stream).2.length) = (format.scan stream).2 := by
  fun_induction format.scan stream with
  | case1 => simp
  | case2 first tail notMarker ih =>
      have tailLength := format.length_scan_snd_le tail
      rw [List.length_cons, Nat.sub_add_comm tailLength, List.drop_succ_cons]
      exact ih
  | case3 first tail marked short => simp
  | case4 first tail marked complete rejected ih =>
      have tailLength := format.length_scan_snd_le tail
      rw [List.length_cons, Nat.sub_add_comm tailLength, List.drop_succ_cons]
      exact ih
  | case5 first tail marked complete length announcement fits frames rest scanned ih =>
      have dropLength := format.length_scan_snd_le ((first :: tail).drop length)
      simp only [scanned, List.drop_drop, List.length_drop] at ih dropLength
      change (first :: tail).drop ((first :: tail).length - rest.length) = rest
      convert ih using 2
      omega
  | case6 first tail marked complete length announcement unfinished => simp

/-- What a resumed scan turns down, the uninterrupted scan turns down at the same offset. -/
theorem mem_rejections_append {position : ℕ} (stream later : List Symbol) {offset : ℕ}
    (member : offset ∈ format.rejections
      (position + (stream.length - (format.scan stream).2.length))
      ((format.scan stream).2 ++ later)) :
    offset ∈ format.rejections position (stream ++ later) := by
  have restLength := format.length_scan_snd_le stream
  fun_induction format.scan stream generalizing position with
  | case1 => simpa using member
  | case2 first tail notMarker ih =>
      have tailLength := format.length_scan_snd_le tail
      rw [List.cons_append, format.rejections_cons_of_not_marker notMarker]
      apply ih _ tailLength
      convert member using 2
      simp only [List.length_cons]
      omega
  | case3 first tail marked short => simpa using member
  | case4 first tail marked complete rejected ih =>
      have tailLength := format.length_scan_snd_le tail
      have stillRejected : format.announced (first :: (tail ++ later)) = none := by
        rw [← List.cons_append, format.announced_append later (by omega)]
        exact rejected
      rw [List.cons_append, format.rejections_of_rejected (by simpa using marked)
        (by simp at complete ⊢; omega) stillRejected]
      apply List.mem_cons_of_mem
      apply ih _ tailLength
      convert member using 2
      simp only [List.length_cons]
      omega
  | case5 first tail marked complete length announcement fits frames rest scanned ih =>
      have dropLength := format.length_scan_snd_le ((first :: tail).drop length)
      have stillAnnounced : format.announced (first :: (tail ++ later)) = some length := by
        rw [← List.cons_append, format.announced_append later (by omega)]
        exact announcement
      rw [List.cons_append, format.rejections_of_frame (by simpa using marked) stillAnnounced
        (by simp at fits ⊢; omega), ← List.cons_append, List.drop_append_of_le_length fits]
      apply ih _ dropLength
      simp only [scanned, List.length_drop] at dropLength ⊢
      change rest.length ≤ (first :: tail).length at restLength
      convert member using 2
      change _ = position + ((first :: tail).length - rest.length)
      omega
  | case6 first tail marked complete length announcement unfinished => simpa using member

/-- What is turned down behind dropped symbols is turned down in the whole stream. -/
theorem mem_rejections_drop {position count : ℕ} {stream : List Symbol}
    (hidesNone : ∀ offset < count, ¬format.Accepts (stream.drop offset)) {offset : ℕ}
    (member : offset ∈ format.rejections (position + count) (stream.drop count)) :
    offset ∈ format.rejections position stream := by
  induction count generalizing position stream with
  | zero => exact member
  | succ count ih =>
      cases stream with
      | nil => simp [rejections] at member
      | cons first tail =>
          have tailHidesNone : ∀ offset < count, ¬format.Accepts (tail.drop offset) := by
            intro offset offset_lt
            simpa using hidesNone (offset + 1) (by omega)
          have tailMember : offset ∈ format.rejections (position + 1) tail := by
            apply ih tailHidesNone
            rw [List.drop_succ_cons] at member
            convert member using 2
            omega
          cases marked : format.marker first with
          | false =>
              rw [format.rejections_cons_of_not_marker marked]
              exact tailMember
          | true =>
              by_cases short : (first :: tail).length < format.headerLength
              · rw [format.rejections_of_short (by simp at short; omega)] at tailMember
                cases tailMember
              · have rejected := format.announced_eq_none_of_not_accepts marked
                  (Nat.le_of_not_lt short) (hidesNone 0 (by omega))
                rw [format.rejections_of_rejected marked (by omega) rejected]
                exact List.mem_cons_of_mem _ tailMember

end Format

end Framing

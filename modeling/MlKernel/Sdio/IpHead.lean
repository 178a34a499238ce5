import Mathlib.Tactic.IntervalCases
import MlKernel.Lib.InternetChecksum
import MlKernel.Sdio.Basic

/-!
# IPv4 header compression

`artosyn_sdio_build_ip_head` and `artosyn_sdio_restore_ip_head` move the bytes
of a header in place, so they are written here as the same sequences of byte
stores, each reading the buffer the stores before it left.  `ip_fast_csum`
belongs to the kernel and is a parameter; `ComputesChecksum` is what its users
rely on.
-/

namespace MlKernel.Sdio

/-- The three leading octets of the link address, `pfx` in the source. -/
structure LinkPrefix where
  octet0 : UInt8
  octet1 : UInt8
  octet2 : UInt8
  deriving DecidableEq

/-- `artosyn_sdio_build_ip_head`: shrink an IHL-5 header from 20 to 12 bytes. -/
def artosynSdioBuildIpHead (skb : List UInt8) : List UInt8 :=
  let d := skb
  let d := d.set 18 (byteAt d 15)
  let d := d.set 17 (byteAt d 7)
  let d := d.set 16 (byteAt d 6)
  let d := d.set 15 (byteAt d 5)
  let d := d.set 14 (byteAt d 4)
  let d := d.set 13 (byteAt d 3)
  let d := d.set 12 (byteAt d 2)
  let d := d.set 8 (byteAt d 0)
  d.drop ipHeadShrink

/-- The stores of `artosyn_sdio_restore_ip_head` that move the carried fields back. -/
def restoreCarriedFields (d : List UInt8) : List UInt8 :=
  let d := d.set 0 0x45
  let d := d.set 1 0
  let d := d.set 2 (byteAt d 12)
  let d := d.set 3 (byteAt d 13)
  let d := d.set 4 (byteAt d 14)
  let d := d.set 5 (byteAt d 15)
  let d := d.set 6 (byteAt d 16)
  let d := d.set 7 (byteAt d 17)
  d.set 8 0x40

/-- Its stores behind the protocol byte, which stays where it is: a zero checksum and
the two addresses. -/
def restoreAddresses (pfx : LinkPrefix) (d : List UInt8) : List UInt8 :=
  let d := d.set 10 0
  let d := d.set 11 0
  let d := d.set 12 pfx.octet0
  let d := d.set 13 pfx.octet1
  let d := d.set 14 pfx.octet2
  let d := d.set 15 (byteAt d 18)
  let d := d.set 16 pfx.octet0
  let d := d.set 17 pfx.octet1
  d.set 18 pfx.octet2

/-- `artosyn_sdio_restore_ip_head`.  `skb_push` reopens eight bytes of headroom,
all of which are overwritten. -/
def artosynSdioRestoreIpHead (ipFastCsum : List UInt8 → ℕ → UInt16) (pfx : LinkPrefix)
    (skb : List UInt8) : List UInt8 :=
  let d := List.replicate ipHeadShrink 0 ++ skb
  let d := restoreAddresses pfx (restoreCarriedFields d)
  let check := ipFastCsum d (byteAt d 0 &&& 0x0f).toNat
  (d.set 10 (check >>> 8).toUInt8).set 11 check.toUInt8

/-- What the driver relies on from the kernel's `ip_fast_csum`: the Internet
checksum of the first `ihl` 32-bit words, in network byte order. -/
def ComputesChecksum (ipFastCsum : List UInt8 → ℕ → UInt16) : Prop :=
  ∀ bytes ihl, 5 ≤ ihl → ipFastCsum bytes ihl = InternetChecksum.checksum (bytes.take (4 * ihl))

theorem exists_header {skb : List UInt8} (long : iphdrSize ≤ skb.length) :
    ∃ (header : ℕ → UInt8) (payload : List UInt8),
      skb = (List.range iphdrSize).map header ++ payload := by
  refine ⟨byteAt skb, skb.drop iphdrSize, ?_⟩
  have headerBytes : (List.range iphdrSize).map (byteAt skb) = skb.take iphdrSize := by
    apply List.ext_getElem
    · simp only [List.length_map, List.length_range, List.length_take]
      omega
    · intro i inRange inTake
      have inside : i < skb.length := by
        simp only [List.length_map, List.length_range] at inRange
        omega
      simp [byteAt, inside]
  rw [headerBytes, List.take_append_drop]

theorem headerBytes (header : ℕ → UInt8) :
    (List.range iphdrSize).map header =
      [header 0, header 1, header 2, header 3, header 4, header 5, header 6, header 7, header 8,
        header 9, header 10, header 11, header 12, header 13, header 14, header 15, header 16,
        header 17, header 18, header 19] := rfl

/-- The compressed layout: marker, protocol, checksum, total length, identification,
fragment word, and the last octet of each address. -/
theorem artosynSdioBuildIpHead_layout (header : ℕ → UInt8) (payload : List UInt8) :
    artosynSdioBuildIpHead ((List.range iphdrSize).map header ++ payload) =
      [header 0, header 9, header 10, header 11, header 2, header 3, header 4, header 5, header 6,
        header 7, header 15, header 19] ++ payload := by
  rw [headerBytes]
  simp [artosynSdioBuildIpHead, byteAt]

theorem length_artosynSdioBuildIpHead (skb : List UInt8) :
    (artosynSdioBuildIpHead skb).length = skb.length - ipHeadShrink := by
  simp [artosynSdioBuildIpHead]

theorem artosynSdioBuildIpHead_fields {skb : List UInt8} (long : iphdrSize ≤ skb.length) :
    byteAt (artosynSdioBuildIpHead skb) 0 = byteAt skb 0 ∧
      byteAt (artosynSdioBuildIpHead skb) 1 = byteAt skb 9 ∧
      be16At (artosynSdioBuildIpHead skb) 4 = be16At skb 2 := by
  rcases exists_header long with ⟨header, payload, rfl⟩
  rw [artosynSdioBuildIpHead_layout]
  exact ⟨rfl, rfl, rfl⟩

/-- The rebuilt header around a given checksum field. -/
def restoredHeader (pfx : LinkPrefix) (header : ℕ → UInt8) (check : UInt16) : List UInt8 :=
  [0x45, 0, header 2, header 3, header 4, header 5, header 6, header 7, 0x40, header 9,
    (check >>> 8).toUInt8, check.toUInt8, pfx.octet0, pfx.octet1, pfx.octet2, header 15,
    pfx.octet0, pfx.octet1, pfx.octet2, header 19]

theorem restoreCarriedFields_layout (header : ℕ → UInt8) (payload : List UInt8) :
    restoreCarriedFields (List.replicate ipHeadShrink 0 ++
        artosynSdioBuildIpHead ((List.range iphdrSize).map header ++ payload)) =
      [0x45, 0, header 2, header 3, header 4, header 5, header 6, header 7, 0x40, header 9,
        header 10, header 11, header 2, header 3, header 4, header 5, header 6, header 7, header 15,
        header 19] ++ payload := by
  rw [artosynSdioBuildIpHead_layout]
  simp [restoreCarriedFields, byteAt]

/-- Building and restoring a header: the carried fields come back to their places. -/
theorem artosynSdioRestoreIpHead_layout (ipFastCsum : List UInt8 → ℕ → UInt16) (pfx : LinkPrefix)
    (header : ℕ → UInt8) (payload : List UInt8) :
    artosynSdioRestoreIpHead ipFastCsum pfx
        (artosynSdioBuildIpHead ((List.range iphdrSize).map header ++ payload)) =
      restoredHeader pfx header (ipFastCsum (restoredHeader pfx header 0 ++ payload) 5) ++
        payload := by
  have stored : restoreAddresses pfx (restoreCarriedFields (List.replicate ipHeadShrink 0 ++
      artosynSdioBuildIpHead ((List.range iphdrSize).map header ++ payload))) =
        restoredHeader pfx header 0 ++ payload := by
    rw [restoreCarriedFields_layout]
    rfl
  have ihl : (byteAt (restoredHeader pfx header 0 ++ payload) 0 &&& 0x0f).toNat = 5 := by
    change ((0x45 : UInt8) &&& 0x0f).toNat = 5
    decide
  simp only [artosynSdioRestoreIpHead, stored, ihl]
  rfl

theorem wordSum_restoredHeader (pfx : LinkPrefix) (header : ℕ → UInt8) (check : UInt16) :
    InternetChecksum.wordSum (restoredHeader pfx header check) =
      InternetChecksum.wordSum (restoredHeader pfx header 0) + check.toNat := by
  have high : (check >>> 8).toUInt8.toNat = check.toNat / 256 := by
    have := check.toNat_lt
    simp [Nat.shiftRight_eq_div_pow]
    omega
  have low : check.toUInt8.toNat = check.toNat % 256 := by simp
  have zeroHigh : ((0 : UInt16) >>> 8).toUInt8.toNat = 0 := rfl
  have zeroLow : (0 : UInt16).toUInt8.toNat = 0 := rfl
  simp only [restoredHeader, InternetChecksum.wordSum]
  omega

theorem verifies_restoredHeader (pfx : LinkPrefix) (header : ℕ → UInt8) :
    InternetChecksum.Verifies (restoredHeader pfx header
      (InternetChecksum.checksum (restoredHeader pfx header 0))) := by
  rw [InternetChecksum.Verifies, wordSum_restoredHeader]
  apply InternetChecksum.foldCarries_add_checksum
  simp only [restoredHeader, InternetChecksum.wordSum]
  have : (0x45 : UInt8).toNat = 69 := rfl
  omega

/-- A packet as the far end rebuilds it: everything the compressed header carries is as it was,
the type-of-service byte is zero, the time to live is 64 and the header verifies. -/
structure Restored (original received : List UInt8) : Prop where
  length_eq : received.length = original.length
  tos : byteAt received 1 = 0
  ttl : byteAt received 8 = 64
  checksum : InternetChecksum.Verifies (received.take iphdrSize)
  unchanged : ∀ i, i ≠ 1 → i ≠ 8 → i ≠ 10 → i ≠ 11 → byteAt received i = byteAt original i

/-- Both addresses of a packet lie in the link prefix. -/
def InPrefix (pfx : LinkPrefix) (skb : List UInt8) : Prop :=
  (byteAt skb 12 = pfx.octet0 ∧ byteAt skb 13 = pfx.octet1 ∧ byteAt skb 14 = pfx.octet2) ∧
    byteAt skb 16 = pfx.octet0 ∧ byteAt skb 17 = pfx.octet1 ∧ byteAt skb 18 = pfx.octet2

instance (pfx : LinkPrefix) (skb : List UInt8) : Decidable (InPrefix pfx skb) :=
  inferInstanceAs (Decidable (_ ∧ _))

theorem restored_artosynSdioRestoreIpHead {ipFastCsum : List UInt8 → ℕ → UInt16}
    (csum : ComputesChecksum ipFastCsum) {pfx : LinkPrefix} {skb : List UInt8}
    (long : iphdrSize ≤ skb.length) (marker : byteAt skb 0 = 0x45) (inPrefix : InPrefix pfx skb) :
    Restored skb (artosynSdioRestoreIpHead ipFastCsum pfx (artosynSdioBuildIpHead skb)) := by
  rcases exists_header long with ⟨header, payload, rfl⟩
  have computed : ipFastCsum (restoredHeader pfx header 0 ++ payload) 5 =
      InternetChecksum.checksum (restoredHeader pfx header 0) := by
    rw [csum _ 5 (Nat.le_refl 5)]
    rfl
  rw [artosynSdioRestoreIpHead_layout, computed]
  rcases inPrefix with ⟨⟨source0, source1, source2⟩, destination0, destination1, destination2⟩
  constructor
  · simp only [restoredHeader, iphdrSize, List.length_append, List.length_cons, List.length_nil,
      List.length_map, List.length_range]
  · rfl
  · rfl
  · exact verifies_restoredHeader pfx header
  · intro i notTos notTtl notHigh notLow
    by_cases inHeader : i < iphdrSize
    · simp only [iphdrSize] at inHeader
      interval_cases i
      all_goals first
        | rfl
        | exact marker.symm
        | exact source0.symm
        | exact source1.symm
        | exact source2.symm
        | exact destination0.symm
        | exact destination1.symm
        | exact destination2.symm
        | contradiction
    · obtain ⟨j, rfl⟩ : ∃ j, i = iphdrSize + j := ⟨i - iphdrSize, by omega⟩
      exact (byteAt_append_right (restoredHeader pfx header _) payload j).trans
        (byteAt_append_right ((List.range iphdrSize).map header) payload j).symm

end MlKernel.Sdio

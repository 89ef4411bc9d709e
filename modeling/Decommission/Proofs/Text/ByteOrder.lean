import Decommission.Proofs.Encoding.Form
import Mathlib.Algebra.GroupWithZero.Nat
import Mathlib.Tactic.SplitIfs

/-! Texts are in the same order by their characters and by their bytes. -/
namespace Decommission.Text

variable {c d : Char} {k v w base : Nat} {xs ys : List UInt8}

/-- The last `k` bytes of a character with the number `v`. Each holds six bits. -/
def continuation : Nat → Nat → List UInt8
  | 0, _ => []
  | k + 1, v => UInt8.ofNat (v / 64 ^ k % 64 + 0x80) :: continuation k v

theorem ofNat_lt_ofNat {a b : Nat} (hb : b < 256) (h : a < b) : UInt8.ofNat a < UInt8.ofNat b := by
  rw [UInt8.lt_iff_toNat_lt, UInt8.toNat_ofNat', UInt8.toNat_ofNat']
  omega

theorem continuation_append_lt (h : v % 64 ^ k < w % 64 ^ k) :
    continuation k v ++ xs < continuation k w ++ ys := by
  induction k with
  | zero => omega
  | succ k ih =>
    rw [Nat.pow_succ, Nat.mod_mul, Nat.mod_mul] at h
    rw [continuation, continuation, List.cons_append, List.cons_append, List.cons_lt_cons_iff]
    have hdigit : w / 64 ^ k % 64 < 64 := Nat.mod_lt _ (by decide)
    rcases Nat.lt_trichotomy (v / 64 ^ k % 64) (w / 64 ^ k % 64) with hlt | heq | hgt
    · exact .inl (ofNat_lt_ofNat (by omega) (by omega))
    · rw [heq] at h
      exact .inr ⟨by rw [heq], ih (Nat.lt_of_add_lt_add_right h)⟩
    · -- a greater digit outweighs all after it
      have hweight := Nat.mul_le_mul_left (64 ^ k) hgt
      have hrest : w % 64 ^ k < 64 ^ k := Nat.mod_lt _ (Nat.pow_pos (by decide))
      rw [Nat.mul_succ] at hweight
      omega

/-- Characters with equally many bytes are in the order of their numbers. -/
theorem lead_append_lt (hbyte : w / 64 ^ k + base < 256) (h : v < w) :
    UInt8.ofNat (v / 64 ^ k + base) :: (continuation k v ++ xs) <
      UInt8.ofNat (w / 64 ^ k + base) :: (continuation k w ++ ys) := by
  rw [List.cons_lt_cons_iff]
  have hdiv : v / 64 ^ k ≤ w / 64 ^ k := Nat.div_le_div_right (Nat.le_of_lt h)
  rcases Nat.lt_or_eq_of_le hdiv with hlt | heq
  · exact .inl (ofNat_lt_ofNat hbyte (by omega))
  · refine .inr ⟨by rw [heq], continuation_append_lt ?_⟩
    have hv := Nat.div_add_mod v (64 ^ k)
    have hw := Nat.div_add_mod w (64 ^ k)
    rw [heq] at hv
    omega

/-- How many bytes follow the first of a character with this number. -/
def followers (v : Nat) : Nat :=
  if v ≤ 0x7F then 0 else if v ≤ 0x7FF then 1 else if v ≤ 0xFFFF then 2 else 3

/-- The mark of a first byte that so many follow. -/
def leadMark : Nat → Nat
  | 0 => 0
  | 1 => 0xC0
  | 2 => 0xE0
  | _ => 0xF0

/-- The first byte of a character with this number. -/
def lead (v : Nat) : Nat := v / 64 ^ followers v + leadMark (followers v)

theorem toNat_le (c : Char) : c.toNat ≤ 0x10FFFF := by
  rcases c.valid with hlow | ⟨-, hhigh⟩
  · exact Nat.le_of_lt (Nat.lt_trans hlow (by decide))
  · exact Nat.le_of_lt_succ hhigh

theorem utf8EncodeChar_eq (c : Char) :
    String.utf8EncodeChar c =
      UInt8.ofNat (lead c.toNat) :: continuation (followers c.toNat) c.toNat := by
  have hmax := toNat_le c
  unfold String.utf8EncodeChar lead followers
  unfold Char.toNat at hmax ⊢
  generalize c.val.toNat = v at hmax ⊢
  dsimp only
  split_ifs with hone htwo hthree
  · simp [continuation, leadMark]
  · have hfirst : v / 64 % 0x20 = v / 64 := Nat.mod_eq_of_lt (by omega)
    simp [continuation, leadMark, hfirst]
  · have hfirst : v / 4096 % 0x10 = v / 4096 := Nat.mod_eq_of_lt (by omega)
    simp [continuation, leadMark, hfirst]
  · have hfirst : v / 262144 % 0x08 = v / 262144 := Nat.mod_eq_of_lt (by omega)
    simp [continuation, leadMark, hfirst]

/-- A character that comes later has more bytes and a greater first one, or as many bytes. -/
theorem lead_lt (h : v < w) (hmax : w ≤ 0x10FFFF) (hmore : followers v ≠ followers w) :
    lead v < lead w := by
  unfold lead
  unfold followers at hmore ⊢
  split_ifs at hmore ⊢ <;> simp only [leadMark] <;> omega

theorem lead_lt_256 (hmax : v ≤ 0x10FFFF) : lead v < 256 := by
  unfold lead followers
  split_ifs <;> simp only [leadMark] <;> omega

theorem encodeChar_append_lt (h : c < d) :
    String.utf8EncodeChar c ++ xs < String.utf8EncodeChar d ++ ys := by
  have hnumber : c.toNat < d.toNat := h
  have hbyte := lead_lt_256 (toNat_le d)
  rw [utf8EncodeChar_eq, utf8EncodeChar_eq, List.cons_append, List.cons_append]
  by_cases hsize : followers c.toNat = followers d.toNat
  · unfold lead at hbyte ⊢
    rw [hsize]
    exact lead_append_lt hbyte hnumber
  · have hlead := lead_lt hnumber (toNat_le d) hsize
    exact List.cons_lt_cons_iff.mpr (.inl (ofNat_lt_ofNat hbyte hlead))

theorem flatMap_encodeChar_lt {cs ds : List Char} (h : cs < ds) :
    cs.flatMap String.utf8EncodeChar < ds.flatMap String.utf8EncodeChar := by
  induction h with
  | @nil d ds =>
    rw [List.flatMap_nil, List.flatMap_cons, utf8EncodeChar_eq, List.cons_append]
    exact List.nil_lt_cons _ _
  | rel h => exact encodeChar_append_lt h
  | cons _ ih => exact List.append_left_lt ih

/-- The order of texts is that of their bytes. -/
theorem toUTF8_lt_iff {s t : String} : s.toUTF8.toList < t.toUTF8.toList ↔ s < t := by
  have hlt {s t : String} (h : s < t) : s.toUTF8.toList < t.toUTF8.toList := by
    rw [toList_toUTF8, toList_toUTF8]
    exact flatMap_encodeChar_lt h
  refine ⟨fun h => ?_, hlt⟩
  by_cases hst : s < t
  · exact hst
  by_cases hts : t < s
  · exact absurd (hlt hts) (List.lt_asymm h)
  · obtain rfl := String.le_antisymm (String.not_lt.mp hts) (String.not_lt.mp hst)
    exact absurd h (List.lt_irrefl _)

theorem toUTF8_le_iff {s t : String} : s.toUTF8.toList ≤ t.toUTF8.toList ↔ s ≤ t := by
  rw [← List.not_lt, toUTF8_lt_iff, String.not_lt]

end Decommission.Text

import Palimesh.Collections.Positional
import Palimesh.Settlement.Witness

namespace Palimesh.Aggregator

open Collections Settlement List Positional

abbrev Text := List Char

def nibble (c : Char) : Option Nat :=
  if '0' ≤ c ∧ c ≤ '9' then some (c.toNat - '0'.toNat)
  else if 'a' ≤ c ∧ c ≤ 'f' then some (c.toNat - 'a'.toNat + 10)
  else if 'A' ≤ c ∧ c ≤ 'F' then some (c.toNat - 'A'.toNat + 10)
  else none

/-- `Buffer.from(text, "hex")`, which stops at the first pair that is not hex. -/
def bufferFromHex : Text → Bytes
  | high :: low :: rest =>
    match nibble high, nibble low with
    | some h, some l => UInt8.ofNat (h * 16 + l) :: bufferFromHex rest
    | _, _ => []
  | _ => []

def hexToBytes (hex : Text) : Bytes :=
  match hex with
  | '0' :: 'x' :: digits => bufferFromHex digits
  | text => bufferFromHex text

def hexToBuffer (hex : Text) : Bytes := bufferFromHex (hex.drop 2)

def toHex32 (hex : Text) : Text := '0' :: 'x' :: hex

def hexChars : List Char := ['0', '1', '2', '3', '4', '5', '6', '7', '8', '9', 'a', 'b', 'c', 'd', 'e', 'f']

def hexChar (digit : Nat) : Char := hexChars.getD digit '0'

def padStart (width : Nat) (text : Text) : Text := List.replicate (width - text.length) '0' ++ text

/-- `toString(16)` of a bigint. -/
def toString16 (n : Int) : Text := if n < 0 then '-' :: Nat.toDigits 16 n.natAbs else Nat.toDigits 16 n.natAbs

def textLe (a b : Text) : Bool := Positional.lexLe (a.map Char.toNat) (b.map Char.toNat)

def bigEndian (width n : Nat) : Bytes := (Positional.digits 256 width n).map UInt8.ofNat

def bytes32 (hex : Text) : BitVec 256 := BitVec.ofNat 256 (uintOfBytes (hexToBuffer hex))

structure IsHex32 (hex : Text) : Prop where
  start : hex.take 2 = ['0', 'x']
  width : (hex.drop 2).length = 64
  lower : ∀ c ∈ hex.drop 2, c ∈ hexChars

theorem IsHex32.of_all {hex : Text} (start : hex.take 2 = ['0', 'x']) (width : (hex.drop 2).length = 64)
    (lower : (hex.drop 2).all (fun c => decide (c ∈ hexChars)) = true) : IsHex32 hex :=
  ⟨start, width, fun c member => of_decide_eq_true (List.all_eq_true.mp lower c member)⟩

theorem nibble_hexChar : ∀ digit < 16, nibble (hexChar digit) = some digit := by decide

theorem hexChar_lt_iff : ∀ a < 16, ∀ b < 16, (hexChar a).toNat < (hexChar b).toNat ↔ a < b := by decide

theorem exists_digit (c : Char) (member : c ∈ hexChars) : ∃ digit < 16, c = hexChar digit := by
  have printed : hexChars = (List.range 16).map hexChar := by decide
  rw [printed] at member
  obtain ⟨digit, small, rfl⟩ := List.mem_map.mp member
  exact ⟨digit, List.mem_range.mp small, rfl⟩

theorem hexChar_mem : ∀ digit < 16, hexChar digit ∈ hexChars := by decide

theorem exists_digits {text : Text} (lower : ∀ c ∈ text, c ∈ hexChars) :
    ∃ digits : List Nat, (∀ d ∈ digits, d < 16) ∧ text = digits.map hexChar := by
  induction text with
  | nil => exact ⟨[], by simp, rfl⟩
  | cons c text ih =>
    obtain ⟨first, rest⟩ := List.forall_mem_cons.mp lower
    obtain ⟨digit, small, rfl⟩ := exists_digit c first
    obtain ⟨digits, bounded, rfl⟩ := ih rest
    exact ⟨digit :: digits, List.forall_mem_cons.mpr ⟨small, bounded⟩, rfl⟩

theorem IsHex32.exists_digits {hex : Text} (isHex : IsHex32 hex) :
    ∃ digits : List Nat, digits.length = 64 ∧ (∀ d ∈ digits, d < 16) ∧ hex = toHex32 (digits.map hexChar) := by
  obtain ⟨digits, bounded, same⟩ := Aggregator.exists_digits isHex.lower
  have width := isHex.width
  rw [same, length_map] at width
  refine ⟨digits, width, bounded, ?_⟩
  rw [← take_append_drop 2 hex, isHex.start, same]
  rfl

theorem bufferFromHex_digits : ∀ {digits : List Nat}, (∀ d ∈ digits, d < 16) →
    bufferFromHex (digits.map hexChar) = (Positional.pairUp 16 digits).map UInt8.ofNat
  | [], _ => rfl
  | [_], _ => rfl
  | high :: low :: rest, bounded => by
    simp only [forall_mem_cons] at bounded
    simp only [map_cons, bufferFromHex, nibble_hexChar _ bounded.1, nibble_hexChar _ bounded.2.1,
      Positional.pairUp, bufferFromHex_digits bounded.2.2]

theorem uintOfBytes_eq (bytes : Bytes) : uintOfBytes bytes = Positional.value 256 (bytes.map UInt8.toNat) := by
  rw [uintOfBytes, Positional.value, foldl_map]

theorem toNat_ofNat_map {ns : List Nat} (bounded : ∀ n ∈ ns, n < 256) :
    (ns.map UInt8.ofNat).map UInt8.toNat = ns := by
  induction ns with
  | nil => rfl
  | cons n ns ih =>
    obtain ⟨first, rest⟩ := List.forall_mem_cons.mp bounded
    have byte : (UInt8.ofNat n).toNat = n := UInt8.toNat_ofNat_of_lt first
    rw [map_cons, map_cons, ih rest, byte]

theorem hexToBuffer_digits {digits : List Nat} (bounded : ∀ d ∈ digits, d < 16) :
    hexToBuffer (toHex32 (digits.map hexChar)) = (Positional.pairUp 16 digits).map UInt8.ofNat :=
  bufferFromHex_digits bounded

theorem toNat_bytes32 {digits : List Nat} (width : digits.length = 64) (bounded : ∀ d ∈ digits, d < 16) :
    (bytes32 (toHex32 (digits.map hexChar))).toNat = Positional.value 16 digits := by
  have small := value_lt bounded
  have even : digits.length % 2 = 0 := by omega
  rw [width] at small
  rw [bytes32, hexToBuffer_digits bounded, uintOfBytes_eq, toNat_ofNat_map (pairUp_lt bounded),
    show 256 = 16 * 16 from rfl, value_pairUp even, BitVec.toNat_ofNat]
  exact Nat.mod_eq_of_lt small

theorem IsHex32.hexToBuffer_eq {hex : Text} (isHex : IsHex32 hex) :
    hexToBuffer hex = bigEndian 32 (bytes32 hex).toNat := by
  obtain ⟨digits, width, bounded, rfl⟩ := isHex.exists_digits
  have even : digits.length % 2 = 0 := by omega
  have pairs : (Positional.pairUp 16 digits).length = 32 := by
    rw [length_pairUp, width]
  rw [hexToBuffer_digits bounded, toNat_bytes32 width bounded, ← value_pairUp even, bigEndian,
    ← pairs, digits_value (pairUp_lt bounded)]

theorem IsHex32.hexToBytes_eq {hex : Text} (isHex : IsHex32 hex) : hexToBytes hex = hexToBuffer hex := by
  obtain ⟨digits, _, _, rfl⟩ := isHex.exists_digits
  rfl

theorem lexLe_hexChar : ∀ {xs ys : List Nat}, (∀ d ∈ xs, d < 16) → (∀ d ∈ ys, d < 16) →
    Positional.lexLe ((xs.map hexChar).map Char.toNat) ((ys.map hexChar).map Char.toNat) = Positional.lexLe xs ys
  | [], _, _, _ => by simp [Positional.lexLe]
  | _ :: _, [], _, _ => rfl
  | x :: xs, y :: ys, xsBounded, ysBounded => by
    simp only [forall_mem_cons] at xsBounded ysBounded
    have less := hexChar_lt_iff x xsBounded.1 y ysBounded.1
    have greater := hexChar_lt_iff y ysBounded.1 x xsBounded.1
    have equal : (hexChar x).toNat = (hexChar y).toNat ↔ x = y := by omega
    have tails := lexLe_hexChar xsBounded.2 ysBounded.2
    simp only [map_cons, Positional.lexLe, tails, less]
    by_cases same : x = y
    · subst same
      rw [beq_self_eq_true, beq_self_eq_true]
    · rw [beq_eq_false_iff_ne.mpr same, beq_eq_false_iff_ne.mpr (mt equal.mp same)]

theorem IsHex32.textLe_iff {a b : Text} (isA : IsHex32 a) (isB : IsHex32 b) :
    textLe a b = true ↔ (bytes32 a).toNat ≤ (bytes32 b).toNat := by
  obtain ⟨xs, xsWidth, xsBounded, rfl⟩ := isA.exists_digits
  obtain ⟨ys, ysWidth, ysBounded, rfl⟩ := isB.exists_digits
  rw [toNat_bytes32 xsWidth xsBounded, toNat_bytes32 ysWidth ysBounded,
    ← lexLe_iff_value_le (xsWidth.trans ysWidth.symm) xsBounded ysBounded,
    ← lexLe_hexChar xsBounded ysBounded]
  simp [textLe, toHex32, Positional.lexLe]

theorem IsHex32.bytes32_injective {a b : Text} (isA : IsHex32 a) (isB : IsHex32 b) (same : bytes32 a = bytes32 b) :
    a = b := by
  obtain ⟨xs, xsWidth, xsBounded, rfl⟩ := isA.exists_digits
  obtain ⟨ys, ysWidth, ysBounded, rfl⟩ := isB.exists_digits
  have values := congrArg BitVec.toNat same
  rw [toNat_bytes32 xsWidth xsBounded, toNat_bytes32 ysWidth ysBounded] at values
  rw [value_injective (xsWidth.trans ysWidth.symm) xsBounded ysBounded values]

section Printing

theorem digitChar_eq_hexChar : ∀ digit < 16, Nat.digitChar digit = hexChar digit := by decide

theorem digits_zero (width : Nat) : Positional.digits 16 width 0 = List.replicate width 0 := by
  induction width with
  | zero => rfl
  | succ width ih => rw [Positional.digits, Nat.zero_div, ih, replicate_succ']

theorem padStart_toDigits {width n : Nat} (wide : 0 < width) (small : n < 16 ^ width) :
    padStart width (Nat.toDigits 16 n) = (Positional.digits 16 width n).map hexChar := by
  induction width generalizing n with
  | zero => cases wide
  | succ width ih =>
    rw [Nat.toDigits_eq_if (by decide), Positional.digits, map_append]
    by_cases single : n < 16
    · rw [if_pos single, Nat.div_eq_of_lt single, Nat.mod_eq_of_lt single, digits_zero, map_replicate,
        digitChar_eq_hexChar n single]
      rfl
    · have more : 0 < width := by
        rcases Nat.eq_zero_or_pos width with none | some
        · rw [none] at small
          omega
        · exact some
      have rest : n / 16 < 16 ^ width := by
        exact Nat.div_lt_of_lt_mul (by omega)
      have printed := ih more rest
      unfold padStart at printed ⊢
      rw [if_neg single, ← printed, length_append, length_singleton, Nat.add_sub_add_right,
        digitChar_eq_hexChar _ (Nat.mod_lt n (by decide)), append_assoc]
      rfl

theorem bufferFromHex_number {n : Nat} (small : n < 2 ^ 256) :
    bufferFromHex (padStart 64 (Nat.toDigits 16 n)) = bigEndian 32 n := by
  have bounded : ∀ d ∈ Positional.digits 16 64 n, d < 16 := digits_lt (by decide)
  have pairs : (Positional.pairUp 16 (Positional.digits 16 64 n)).length = 32 := by
    rw [length_pairUp, length_digits]
  have number : Positional.value (16 * 16) (Positional.pairUp 16 (Positional.digits 16 64 n)) = n := by
    rw [value_pairUp (by rw [length_digits]), value_digits]
    exact Nat.mod_eq_of_lt small
  have back := digits_value (pairUp_lt bounded)
  rw [pairs, number] at back
  rw [padStart_toDigits (by decide) small, bufferFromHex_digits bounded, bigEndian, ← back]

def lowerCase (text : Text) : Text := text.map Char.toLower

theorem nibble_toLower (c : Char) : nibble c.toLower = nibble c := by
  by_cases upper : c.val ≥ 'A'.val ∧ c.val ≤ 'Z'.val
  · have letters : ∀ n < 26, nibble (Char.ofNat (65 + n)).toLower = nibble (Char.ofNat (65 + n)) := by decide
    have first : 65 ≤ c.toNat := upper.1
    have last : c.toNat ≤ 90 := upper.2
    have letter : Char.ofNat (65 + (c.toNat - 65)) = c := by
      rw [Nat.add_sub_cancel' first]
      exact Char.ofNat_toNat c
    have same := letters (c.toNat - 65) (by omega)
    rwa [letter] at same
  · rw [show c.toLower = c from dif_neg upper]

theorem bufferFromHex_lowerCase : ∀ text : Text, bufferFromHex (lowerCase text) = bufferFromHex text
  | [] => rfl
  | [_] => rfl
  | high :: low :: rest => by
    have below := bufferFromHex_lowerCase rest
    unfold lowerCase at below ⊢
    simp only [map_cons, bufferFromHex, nibble_toLower, below]

theorem hexToBuffer_lowerCase (hex : Text) : hexToBuffer (lowerCase hex) = hexToBuffer hex := by
  have same := bufferFromHex_lowerCase (hex.drop 2)
  unfold lowerCase at same
  rw [hexToBuffer, lowerCase, ← map_drop, same, hexToBuffer]

theorem bytes32_lowerCase (hex : Text) : bytes32 (lowerCase hex) = bytes32 hex := by
  rw [bytes32, hexToBuffer_lowerCase, bytes32]

end Printing

variable (word : BitVec 256)

def wordDigits : Text := (Positional.digits 16 64 word.toNat).map hexChar

theorem isHex32_word : IsHex32 (toHex32 (wordDigits word)) where
  start := rfl
  width := by simp [toHex32, wordDigits, length_digits]
  lower := by
    intro c member
    obtain ⟨digit, inDigits, rfl⟩ := List.mem_map.mp (show c ∈ wordDigits word from member)
    exact hexChar_mem digit (digits_lt (by decide) digit inDigits)

theorem bytes32_word : bytes32 (toHex32 (wordDigits word)) = word := by
  apply BitVec.eq_of_toNat_eq
  rw [wordDigits, toNat_bytes32 (length_digits _ _) (digits_lt (by decide)),
    value_digits]
  exact Nat.mod_eq_of_lt word.isLt

end Palimesh.Aggregator

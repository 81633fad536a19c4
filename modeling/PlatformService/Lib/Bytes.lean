import Mathlib.Data.List.TakeWhile

/-!
# Byte strings

Texts are lists of octets. A C string is the octets before the first NUL, so
every function that reads a buffer through `strlen` or `strcmp` sees `cString`
of it; a bounded copy keeps a prefix. Letter case is ASCII only.
-/

namespace PlatformService

/-- A sequence of octets. -/
abbrev Bytes := List UInt8

/-- The octets of an ASCII literal. -/
def ascii (text : String) : Bytes := text.toList.map fun c => c.toNat.toUInt8

/-- The octets that spell a literal. The kernel compares a literal with its spelling faster than it
decodes it. -/
theorem ascii_eq_of_spelled {text : String} {bytes : Bytes}
    (spelled : text = String.ofList (bytes.map fun byte => Char.ofNat byte.toNat)) :
    ascii text = bytes := by
  have single (byte : UInt8) : (Char.ofNat byte.toNat).toNat.toUInt8 = byte := by
    have small := byte.toNat_lt
    have valid : byte.toNat.isValidChar := Or.inl (by omega)
    unfold Char.ofNat
    rw [dif_pos valid]
    exact UInt8.ofNat_toNat
  unfold ascii
  rw [spelled, String.toList_ofList, List.map_map]
  exact (List.map_congr_left fun byte _ => single byte).trans (List.map_id _)

/-- What `strlen` and `strcmp` see of a buffer: the octets before the first NUL. -/
def cString (bytes : Bytes) : Bytes := bytes.takeWhile (· ≠ 0)

/-- A NUL-free buffer is its own C string. -/
theorem cString_eq_self {bytes : Bytes} (free : (0 : UInt8) ∉ bytes) : cString bytes = bytes := by
  unfold cString
  rw [List.takeWhile_eq_self_iff]
  intro byte stored
  simp only [decide_eq_true_eq]
  rintro rfl
  exact free stored

/-- A C string holds no NUL. -/
theorem zero_not_mem_cString (bytes : Bytes) : (0 : UInt8) ∉ cString bytes := by
  intro stored
  have selected := List.mem_takeWhile_imp stored
  simp at selected

/-- What `snprintf(out, size, "%s", …)` leaves in a buffer of `size` octets. -/
def boundedCopy (size : Nat) (bytes : Bytes) : Bytes := (cString bytes).take (size - 1)

/-- `tolower` in the C locale. -/
def toLower (byte : UInt8) : UInt8 := if 65 ≤ byte ∧ byte ≤ 90 then byte + 32 else byte

/-- The form under which SQLite's `NOCASE` collation compares texts. -/
def nocase (bytes : Bytes) : Bytes := (cString bytes).map toLower

end PlatformService

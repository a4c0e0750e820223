import TsnReconfig.Lib.Text
import TsnReconfig.OpenFlow.Match

/-!
# Addresses as texts

`str` of `inet::MACAddress` and `inet::IPv4Address`, and what their constructors read.
-/

namespace TsnReconfig.OpenFlow

open Lib

/-! ## MAC addresses -/

namespace MACAddress

/-- `getAddressByte`. -/
def getAddressByte (a : MACAddress) (k : ℕ) : ℕ := (a.toNat >>> ((6 - k - 1) * 8)) % 256

/-- `str`: the last hyphen is overwritten. -/
def str (a : MACAddress) : String :=
  String.ofList
    ((List.range 6).flatMap fun k => hexByte (getAddressByte a k) ++ ['-']).dropLast

/-- `tryParse`: the loops behind the check of the syntax pass over what is not a digit. -/
def tryParse (hexstr : String) : Option MACAddress :=
  if !hexstr.toList.all fun c => isHexDigit c || [' ', ':', '-'].contains c then none
  else
    let digits := hexstr.toList.filter isHexDigit
    if digits.length = 2 * 6 then some (.ofNat 48 (ofHexDigits digits)) else none

theorem getAddressByte_lt (a : MACAddress) (k : ℕ) : getAddressByte a k < 256 :=
  Nat.mod_lt _ (by decide)

/-- The bytes of an address make up the address. -/
theorem foldl_bytes (a : MACAddress) :
    256 * (256 * (256 * (256 * (256 * (256 * 0 + getAddressByte a 0) + getAddressByte a 1) +
      getAddressByte a 2) + getAddressByte a 3) + getAddressByte a 4) + getAddressByte a 5 =
        a.toNat := by
  have hlt := a.isLt
  simp only [getAddressByte, Nat.shiftRight_eq_div_pow, Nat.reduceSub, Nat.reduceMul,
    Nat.reducePow] at *
  omega

theorem str_eq (a : MACAddress) :
    (str a).toList = hexByte (getAddressByte a 0) ++ '-' :: hexByte (getAddressByte a 1) ++ '-' ::
      hexByte (getAddressByte a 2) ++ '-' :: hexByte (getAddressByte a 3) ++ '-' ::
      hexByte (getAddressByte a 4) ++ '-' :: hexByte (getAddressByte a 5) := by
  rw [str, String.toList_ofList]
  rfl

/-- An address is read as it was written. -/
theorem tryParse_str (a : MACAddress) : tryParse (str a) = some a := by
  have hbyte := fun k => getAddressByte_lt a k
  have hhex : ∀ k, (hexByte (getAddressByte a k)).filter isHexDigit = hexByte (getAddressByte a k) :=
    fun k => List.filter_eq_self.mpr (isHexDigit_hexByte (hbyte k))
  have hhyphen : isHexDigit '-' = false := by decide
  have hdigits : (str a).toList.filter isHexDigit =
      hexByte (getAddressByte a 0) ++ hexByte (getAddressByte a 1) ++
        hexByte (getAddressByte a 2) ++ hexByte (getAddressByte a 3) ++
        hexByte (getAddressByte a 4) ++ hexByte (getAddressByte a 5) := by
    simp [str_eq, hhex, hhyphen]
  have hall : ((str a).toList.all fun c => isHexDigit c || [' ', ':', '-'].contains c) = true := by
    rw [List.all_eq_true]
    intro c hc
    rw [str_eq] at hc
    have hcases : c = '-' ∨ ∃ k, c ∈ hexByte (getAddressByte a k) := by
      simp only [List.mem_append, List.mem_cons] at hc
      grind
    rcases hcases with rfl | ⟨k, hk⟩
    · decide
    · simp [isHexDigit_hexByte (hbyte k) c hk]
  have hvalue : ofHexDigits ((str a).toList.filter isHexDigit) = a.toNat := by
    simp only [hdigits, ofHexDigits, List.foldl_append, foldl_hexByte (hbyte _)]
    exact foldl_bytes a
  rw [tryParse, hall]
  simp only [Bool.not_true, Bool.false_eq_true, if_false]
  rw [if_pos (by rw [hdigits]; rfl), hvalue, BitVec.ofNat_toNat, BitVec.setWidth_eq]

end MACAddress

/-! ## IPv4 addresses -/

namespace IPv4Address

def getDByte (a : IPv4Address) (k : ℕ) : ℕ := (a.toNat >>> ((3 - k) * 8)) % 256

/-- `str` without the text for an unspecified address. -/
def str (a : IPv4Address) : String :=
  toString (getDByte a 0) ++ "." ++ toString (getDByte a 1) ++ "." ++ toString (getDByte a 2) ++
    "." ++ toString (getDByte a 3)

/-- The loop of `parseIPAddress`, with the count of numbers that are left. -/
def parseNumbers : ℕ → List Char → Option (List ℕ)
  | 0, _ => none
  | left + 1, s =>
    let digits := s.takeWhile Char.isDigit
    let num := Nat.ofDigitChars 10 digits 0
    if digits.isEmpty || 255 < num then none
    else
      match s.dropWhile Char.isDigit with
      | [] => if left = 0 then some [num] else none
      | '.' :: s => (parseNumbers left s).map (num :: ·)
      | _ => none

/-- `parseIPAddress`, as `set` puts the numbers together. -/
def parseIPAddress (text : String) : Option IPv4Address :=
  if text = "<unspec>" then some 0
  else
    (parseNumbers 4 text.toList).map fun numbers =>
      .ofNat (numbers.foldl (fun n b => 256 * n + b) 0)

theorem getDByte_lt (a : IPv4Address) (k : ℕ) : getDByte a k < 256 := Nat.mod_lt _ (by decide)

theorem foldl_bytes (a : IPv4Address) :
    256 * (256 * (256 * (256 * 0 + getDByte a 0) + getDByte a 1) + getDByte a 2) + getDByte a 3 =
      a.toNat := by
  have hlt := a.toNat_lt
  simp only [getDByte, Nat.shiftRight_eq_div_pow, Nat.reduceSub, Nat.reduceMul,
    Nat.reducePow] at *
  omega

theorem parseNumbers_not_rejected {n : ℕ} (hn : n < 256) :
    ((Nat.toDigits 10 n).isEmpty || decide (255 < n)) = false := by
  rw [Bool.or_eq_false_iff, decide_eq_false_iff_not]
  exact ⟨by simp, by omega⟩

/-- A number before a dot is read. -/
theorem parseNumbers_dot {n : ℕ} (hn : n < 256) (left : ℕ) (s : List Char) :
    parseNumbers (left + 1) (Nat.toDigits 10 n ++ '.' :: s) =
      (parseNumbers left s).map (n :: ·) := by
  have htake : (Nat.toDigits 10 n ++ '.' :: s).takeWhile Char.isDigit = Nat.toDigits 10 n := by
    rw [List.takeWhile_append_of_pos isDigit_toDigits, List.takeWhile_cons_of_neg (by decide),
      List.append_nil]
  have hdrop : (Nat.toDigits 10 n ++ '.' :: s).dropWhile Char.isDigit = '.' :: s := by
    rw [List.dropWhile_append_of_pos isDigit_toDigits, List.dropWhile_cons_of_neg (by decide)]
  rw [parseNumbers]
  simp only [htake, hdrop, Nat.ofDigitChars_ten_toDigits, parseNumbers_not_rejected hn,
    Bool.false_eq_true, if_false]

/-- The last number is read. -/
theorem parseNumbers_last {n : ℕ} (hn : n < 256) :
    parseNumbers 1 (Nat.toDigits 10 n) = some [n] := by
  have htake : (Nat.toDigits 10 n).takeWhile Char.isDigit = Nat.toDigits 10 n :=
    List.takeWhile_eq_self_iff.mpr isDigit_toDigits
  have hdrop : (Nat.toDigits 10 n).dropWhile Char.isDigit = [] := by
    rw [List.dropWhile_eq_nil_iff]
    exact isDigit_toDigits
  rw [parseNumbers]
  simp only [htake, hdrop, Nat.ofDigitChars_ten_toDigits, parseNumbers_not_rejected hn,
    Bool.false_eq_true, if_false, if_true]

/-- An address is read as it was written. -/
theorem parseIPAddress_str (a : IPv4Address) : parseIPAddress (str a) = some a := by
  have htext : (str a).toList = Nat.toDigits 10 (getDByte a 0) ++ '.' ::
      (Nat.toDigits 10 (getDByte a 1) ++ '.' :: (Nat.toDigits 10 (getDByte a 2) ++ '.' ::
        Nat.toDigits 10 (getDByte a 3))) := by
    simp [str]
  have hspec : str a ≠ "<unspec>" := by
    intro h
    have hhead : (str a).toList.head? = some '<' := by
      rw [h]
      rfl
    rw [htext, List.head?_append_of_ne_nil _ Nat.toDigits_ne_nil] at hhead
    have hdigit := isDigit_toDigits _ (List.mem_of_mem_head? hhead)
    cases hdigit
  have hparse : parseNumbers 4 (str a).toList =
      some [getDByte a 0, getDByte a 1, getDByte a 2, getDByte a 3] := by
    rw [htext, parseNumbers_dot (getDByte_lt a 0), parseNumbers_dot (getDByte_lt a 1),
      parseNumbers_dot (getDByte_lt a 2), parseNumbers_last (getDByte_lt a 3)]
    rfl
  rw [parseIPAddress, if_neg hspec, hparse]
  simp only [Option.map_some, List.foldl_cons, List.foldl_nil, foldl_bytes, UInt32.ofNat_toNat]

end IPv4Address

end TsnReconfig.OpenFlow

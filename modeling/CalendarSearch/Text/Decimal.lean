/-!
Decimal numerals over ASCII digits: the value of a run of digits, and numbers padded with zeros.
-/

namespace CalendarSearch.Text

def digitValue (c : Char) : Nat := c.toNat - '0'.toNat

/-- The number that a run of decimal digits spells, most significant digit first. -/
def numeral (digits : List Char) : Nat := digits.foldl (fun n c => 10 * n + digitValue c) 0

/-- A number in decimal, with zeros in front up to the given width. -/
def padded (width n : Nat) : String :=
  let digits := Nat.toDigits 10 n
  String.ofList (List.replicate (width - digits.length) '0' ++ digits)

end CalendarSearch.Text

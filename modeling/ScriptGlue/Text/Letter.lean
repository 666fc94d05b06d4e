import ScriptGlue.Text.AlphabeticRanges
import ScriptGlue.Text.NumericRanges

/-!
# Characters of identifiers

An identifier starts with a letter or an underscore and goes on with letters, numbers and
underscores, where letters and numbers are those of all scripts.
-/
namespace ScriptGlue.Text

/-- Whether one of the closed intervals holds `n`. -/
def inRanges (ranges : List (Nat × Nat)) (n : Nat) : Bool :=
  ranges.any fun (lo, hi) => lo ≤ n && n ≤ hi

/-- Unicode Alphabetic. -/
def isLetter (c : Char) : Bool :=
  c.isAlpha || (128 ≤ c.toNat && inRanges alphabeticRanges c.toNat)

/-- The general categories Nd, Nl and No. -/
def isNumber (c : Char) : Bool :=
  c.isDigit || (128 ≤ c.toNat && inRanges numericRanges c.toNat)

def isAlphanumeric (c : Char) : Bool := isLetter c || isNumber c

def isIdentStart (c : Char) : Bool := isLetter c || c == '_'

def isIdentRest (c : Char) : Bool := isAlphanumeric c || c == '_'

end ScriptGlue.Text

import ScriptGlue.Text.Letter
import ScriptGlue.Text.CasedRanges
import ScriptGlue.Text.CaseIgnorableRanges
import ScriptGlue.Text.CaseTable

/-!
# Letter case

Case mappings of single characters, which may grow to several, and of whole texts, where a capital
sigma at the end of a word becomes the final form of the small one.
-/
namespace ScriptGlue.Text

/-- The image of a character beyond ASCII under a pair of tables. -/
def caseImage (special : List (Nat × List Nat)) (runs : List CaseRun) (c : Char) : List Char :=
  match special.lookup c.toNat with
  | some image => image.map Char.ofNat
  | none =>
    match runs.find? (·.covers c.toNat) with
    | some run => [Char.ofNat ((c.toNat : Int) + run.shift).toNat]
    | none => [c]

/-- The lowercase image of one character. -/
def lowerChar (c : Char) : List Char :=
  if c.toNat < 128 then [c.toLower] else caseImage lowerSpecial lowerRuns c

/-- The uppercase image of one character. -/
def upperChar (c : Char) : List Char :=
  if c.toNat < 128 then [c.toUpper] else caseImage upperSpecial upperRuns c

def isCased (c : Char) : Bool := inRanges casedRanges c.toNat

def isCaseIgnorable (c : Char) : Bool := inRanges caseIgnorableRanges c.toNat

/-- Whether the first character that matters to case is cased. -/
def meetsCased (s : List Char) : Bool :=
  ((s.dropWhile isCaseIgnorable).head?.map isCased).getD false

/-- Lowers a text whose part before it, reversed, is `before`. A capital sigma is final when a cased
character comes before it and none after it. -/
def lowerAfter (before : List Char) : List Char → List Char
  | [] => []
  | c :: r =>
    (if c == 'Σ' then [if meetsCased before && !meetsCased r then 'ς' else 'σ'] else lowerChar c) ++
      lowerAfter (c :: before) r

def lower (s : String) : String := String.ofList (lowerAfter [] s.toList)

end ScriptGlue.Text

/-!
# Finding and replacing text

Occurrences of one text in another, and replacement of all of them from left to right.
-/
namespace ScriptGlue.Text

/-- Whether `pat` occurs in the text; the empty pattern occurs in every text. -/
def occursIn (pat : List Char) : List Char → Bool
  | [] => pat.isEmpty
  | c :: r => pat.isPrefixOf (c :: r) || occursIn pat r

/-- Whether `pat` occurs in `s`. -/
def contains (s pat : String) : Bool := occursIn pat.toList s.toList

/-- Whether `s` starts with `lead`. -/
def startsWith (s lead : String) : Bool := lead.toList.isPrefixOf s.toList

/-- What follows `lead` in `s`, if `s` starts with it. -/
def dropLead? (lead s : String) : Option String :=
  if startsWith s lead then some (String.ofList (s.toList.drop lead.toList.length)) else none

/-- Replaces the occurrences of `pat` from left to right, none overlapping the one before it. The
replacement is not searched again. -/
def replaceChars (pat new : List Char) (s : List Char) : List Char :=
  match s with
  | [] => []
  | c :: r =>
    if 0 < pat.length ∧ pat.isPrefixOf (c :: r) then
      new ++ replaceChars pat new ((c :: r).drop pat.length)
    else c :: replaceChars pat new r
termination_by s.length
decreasing_by
  · rename_i h
    simp only [List.length_drop, List.length_cons]
    omega
  · simp

/-- Replaces every occurrence of the nonempty text `pat` in `s`. -/
def replace (s pat new : String) : String :=
  String.ofList (replaceChars pat.toList new.toList s.toList)

end ScriptGlue.Text

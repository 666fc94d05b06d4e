/-!
# Blanks, words and lines

Cutting text at blank characters and at line ends. All functions work on lists of characters, so
that what they keep and what they drop can be stated; the `String` forms wrap them.
-/
namespace ScriptGlue.Text

/-- A blank is a character with the Unicode property White_Space. -/
def isBlank (c : Char) : Bool :=
  let n := c.toNat
  (9 ≤ n && n ≤ 13) || n == 32 || n == 0x85 || n == 0xA0 || n == 0x1680 ||
    (0x2000 ≤ n && n ≤ 0x200A) || n == 0x2028 || n == 0x2029 || n == 0x202F || n == 0x205F ||
    n == 0x3000

/-- Drops the blanks at both ends. -/
def trimChars (s : List Char) : List Char :=
  ((s.dropWhile isBlank).reverse.dropWhile isBlank).reverse

/-- Drops the blanks at both ends. -/
def trim (s : String) : String := String.ofList (trimChars s.toList)

/-- Whether the text has no character but blanks. -/
def isAllBlank (s : String) : Bool := s.toList.all isBlank

theorem length_dropWhile_le {α : Type} (p : α → Bool) (s : List α) :
    (s.dropWhile p).length ≤ s.length :=
  (List.dropWhile_suffix p).length_le

/-- The maximal runs of characters that are not separators, in order. -/
def runs (separates : Char → Bool) (s : List Char) : List (List Char) :=
  match _h : s.dropWhile separates with
  | [] => []
  | c :: r =>
    (c :: r.takeWhile (!separates ·)) :: runs separates (r.dropWhile (!separates ·))
termination_by s.length
decreasing_by
  have h1 := length_dropWhile_le separates s
  have h2 := length_dropWhile_le (!separates ·) r
  rw [_h, List.length_cons] at h1
  omega

/-- The words of a text: its maximal runs without blanks. -/
def words (s : String) : List String := (runs isBlank s.toList).map String.ofList

def collapse (s : String) : String := " ".intercalate (words s)

/-- A line that ends in a line feed loses one carriage return before it. -/
def dropReturn (line : List Char) : List Char :=
  if line.getLast? = some '\r' then line.dropLast else line

/-- Lines end at line feeds; text after the last one is a line if there is any. -/
def lineChars (s : List Char) : List (List Char) :=
  match s with
  | [] => []
  | c :: r =>
    match _h : (c :: r).dropWhile (· ≠ '\n') with
    | [] => [c :: r]
    | _ :: rest => dropReturn ((c :: r).takeWhile (· ≠ '\n')) :: lineChars rest
termination_by s.length
decreasing_by
  have h1 := length_dropWhile_le (fun x => decide (x ≠ '\n')) (c :: r)
  rw [_h] at h1
  simp only [List.length_cons] at h1 ⊢
  omega

/-- The lines of a text, without their ends. -/
def lines (s : String) : List String := (lineChars s.toList).map String.ofList

end ScriptGlue.Text

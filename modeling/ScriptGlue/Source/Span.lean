/-!
# Spans

Places in one source text. Offsets count characters, lines count from one.
-/
namespace ScriptGlue

/-- The characters from `start` up to but not including `stop`; `line` is the line of `start`. -/
structure Span where
  start : Nat
  stop : Nat
  line : Nat
  deriving DecidableEq, Repr

namespace Span

/-- A whole line whose offsets are not known. -/
def ofLine (line : Nat) : Span := ⟨0, 0, line⟩

/-- The least span that covers both. -/
def cover (a b : Span) : Span :=
  ⟨min a.start b.start, max a.stop b.stop, min a.line b.line⟩

/-- The part of the source that a span covers, as far as the source reaches. -/
def slice (s : Span) (source : List Char) : List Char :=
  let stop := min s.stop source.length
  let start := min s.start stop
  (source.drop start).take (stop - start)

def text (s : Span) (source : List Char) : String := String.ofList (s.slice source)

end Span

end ScriptGlue

/-! # Spans

A span is a range of bytes in the UTF-8 form of a text. -/

namespace TagTemplate

/-- The bytes from `start` up to and without `stop`. -/
structure Span where
  start : Nat
  stop : Nat
deriving DecidableEq, Repr, Inhabited

namespace Span

/-- The span moved to the right. -/
def shift (s : Span) (by' : Nat) : Span :=
  ⟨s.start + by', s.stop + by'⟩

def toText (s : Span) : String :=
  toString s.start ++ ".." ++ toString s.stop

end Span

end TagTemplate

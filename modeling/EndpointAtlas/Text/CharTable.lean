/-!
Membership of a character in a property that is given by runs of code points. A run is a pair of
bounds, or a triple whose last part is the distance between its members.
-/

namespace EndpointAtlas.Text

def inRanges (ranges : List (Nat × Nat)) (code : Nat) : Bool :=
  ranges.any fun (low, high) => low ≤ code && code ≤ high

/-- Whether a code point is a member of one of the stepped runs `low, low + step, …, high`. -/
def inRuns (runs : List (Nat × Nat × Nat)) (code : Nat) : Bool :=
  runs.any fun (low, high, step) => low ≤ code && code ≤ high && (code - low) % step == 0

end EndpointAtlas.Text

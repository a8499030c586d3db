namespace WireModel.Text

def inIntervals (table : List (Nat × Nat)) (n : Nat) : Bool :=
  table.any fun (first, last) => first ≤ n && n ≤ last

/-- Whether `n` lies an even number of steps into one of the closed intervals. -/
def inAlternating (table : List (Nat × Nat)) (n : Nat) : Bool :=
  table.any fun (first, last) => first ≤ n && n ≤ last && (n - first) % 2 == 0

/-- The image of `n` under the first interval that has `n` a multiple of `step` from its start; the
third number of an interval is the image of its start, and distances are kept. -/
def shifted (table : List (Nat × Nat × Nat)) (step n : Nat) : Option Nat :=
  table.findSome? fun (first, last, image) =>
    if first ≤ n && n ≤ last && (n - first) % step == 0 then some (image + (n - first)) else none

end WireModel.Text

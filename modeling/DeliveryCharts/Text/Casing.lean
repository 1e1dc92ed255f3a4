import DeliveryCharts.Text.CaseTables
import DeliveryCharts.Text.Printable

/-!
Lower and upper case of texts. A capital sigma at the end of a word becomes the final small sigma.
-/

namespace DeliveryCharts.Text

def CaseRun.map? (r : CaseRun) (n : Nat) : Option Nat :=
  if r.first ≤ n ∧ n ≤ r.last ∧ (n - r.first) % r.step = 0 then some (r.target + (n - r.first))
  else none

def lowerChar (c : Char) : List Char :=
  if c = '\u0130' then ['i', '\u0307']
  else
    match lowerRuns.findSome? fun r ↦ r.map? c.toNat with
    | some n => [Char.ofNat n]
    | none => [c]

def upperChar (c : Char) : List Char :=
  match upperSequences.lookup c.toNat with
  | some l => l.map Char.ofNat
  | none =>
    match upperRuns.findSome? fun r ↦ r.map? c.toNat with
    | some n => [Char.ofNat n]
    | none => [c]

def isCased (c : Char) : Bool := inRanges casedRanges c.toNat

def isCaseIgnorable (c : Char) : Bool := inRanges caseIgnorableRanges c.toNat

/-- The first character that is not ignored is cased. -/
def nextIsCased (cs : List Char) : Bool :=
  match cs.dropWhile isCaseIgnorable with
  | [] => false
  | c :: _ => isCased c

/-- The lower case of `cs`, which stands behind the reverse of `before`. -/
def lowerAfter : List Char → List Char → List Char
  | _, [] => []
  | before, c :: cs =>
    let l :=
      if c = '\u03A3' then
        if nextIsCased before && !nextIsCased cs then ['\u03C2'] else ['\u03C3']
      else lowerChar c
    l ++ lowerAfter (c :: before) cs

def lowerChars (cs : List Char) : List Char := lowerAfter [] cs

def upperChars (cs : List Char) : List Char := cs.flatMap upperChar

def lower (s : String) : String := .ofList (lowerChars s.toList)

def upper (s : String) : String := .ofList (upperChars s.toList)

end DeliveryCharts.Text

import DeliveryCharts.Decimal.Binary64

/-!
Trees of JSON. Members of an object stand in the order of their keys, each key once; `insert`,
`ofMembers` and `canonical` keep that order.
-/

namespace DeliveryCharts

open Decimal (Binary64)

inductive Number where
  | int (z : Int)
  | float (x : Binary64)
  deriving DecidableEq, Repr, Inhabited

inductive Json where
  | null
  | bool (b : Bool)
  | num (n : Number)
  | str (s : String)
  | arr (items : List Json)
  | obj (members : List (String × Json))
  deriving Inhabited

abbrev Members := List (String × Json)

namespace Json

mutual

def eqb : Json → Json → Bool
  | null, null => true
  | bool a, bool b => a == b
  | num a, num b => a == b
  | str a, str b => a == b
  | arr a, arr b => eqbItems a b
  | obj a, obj b => eqbMembers a b
  | _, _ => false

def eqbItems : List Json → List Json → Bool
  | [], [] => true
  | a :: as, b :: bs => eqb a b && eqbItems as bs
  | _, _ => false

def eqbMembers : List (String × Json) → List (String × Json) → Bool
  | [], [] => true
  | (k, a) :: as, (l, b) :: bs => k == l && eqb a b && eqbMembers as bs
  | _, _ => false

end

mutual

theorem eqb_iff : ∀ a b : Json, eqb a b = true ↔ a = b
  | null, b => by cases b <;> simp [eqb]
  | bool _, b => by cases b <;> simp [eqb]
  | num _, b => by cases b <;> simp [eqb]
  | str _, b => by cases b <;> simp [eqb]
  | arr as, b => by cases b <;> simp [eqb, eqbItems_iff as]
  | obj as, b => by cases b <;> simp [eqb, eqbMembers_iff as]

theorem eqbItems_iff : ∀ as bs : List Json, eqbItems as bs = true ↔ as = bs
  | [], bs => by cases bs <;> simp [eqbItems]
  | a :: as, bs => by cases bs <;> simp [eqbItems, eqb_iff a, eqbItems_iff as]

theorem eqbMembers_iff : ∀ as bs : List (String × Json), eqbMembers as bs = true ↔ as = bs
  | [], bs => by cases bs <;> simp [eqbMembers]
  | (k, a) :: as, bs => by
    rcases bs with _ | ⟨⟨l, b⟩, bs⟩
    · simp [eqbMembers]
    · simp [eqbMembers, eqb_iff a, eqbMembers_iff as]

end

instance : DecidableEq Json := fun a b ↦ decidable_of_iff _ (eqb_iff a b)

def ofInt (z : Int) : Json := num (.int z)

def isNull : Json → Bool
  | null => true
  | _ => false

def isObject : Json → Bool
  | obj _ => true
  | _ => false

def str? : Json → Option String
  | str s => some s
  | _ => none

def members? : Json → Option Members
  | obj ms => some ms
  | _ => none

end Json

namespace Members

def get? : Members → String → Option Json
  | [], _ => none
  | (k, v) :: ms, key => if k = key then some v else get? ms key

def contains (ms : Members) (key : String) : Bool := (get? ms key).isSome

/-- The member takes the place of one with its key, or its place in the order of the keys. -/
def insert : Members → String → Json → Members
  | [], key, v => [(key, v)]
  | (k, w) :: ms, key, v =>
    if k = key then (key, v) :: ms
    else if key < k then (key, v) :: (k, w) :: ms
    else (k, w) :: insert ms key v

def erase (ms : Members) (key : String) : Members := ms.filter fun m ↦ m.1 ≠ key

/-- Of members with one key the last one counts. -/
def ofList (l : List (String × Json)) : Members := l.foldl (fun ms m ↦ insert ms m.1 m.2) []

theorem get?_insert (ms : Members) (key key' : String) (v : Json) :
    get? (insert ms key v) key' = if key = key' then some v else get? ms key' := by
  induction ms with
  | nil => simp [insert, get?]
  | cons m ms ih =>
    obtain ⟨k, w⟩ := m
    rw [insert]
    split
    · subst k
      simp only [get?]
      split <;> rfl
    · rename_i hk
      split
      · simp only [get?]
      · simp only [get?, ih]
        split
        · subst k
          simp [Ne.symm hk]
        · rfl

end Members

namespace Json

def get? : Json → String → Option Json
  | obj ms, key => Members.get? ms key
  | _, _ => none

/-- An object of the given members; of members with one key the last one counts. -/
def ofMembers (l : List (String × Json)) : Json := obj (Members.ofList l)

mutual

/-- The same tree with the members of every object in the order of their keys. -/
def canonical : Json → Json
  | arr items => arr (canonicalItems items)
  | obj ms => obj (Members.ofList (canonicalMembers ms))
  | v => v

def canonicalItems : List Json → List Json
  | [] => []
  | v :: vs => canonical v :: canonicalItems vs

def canonicalMembers : List (String × Json) → List (String × Json)
  | [] => []
  | (k, v) :: ms => (k, canonical v) :: canonicalMembers ms

end

end Json

end DeliveryCharts

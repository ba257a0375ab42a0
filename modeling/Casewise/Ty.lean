import Casewise.Text.Spaced

/-!
# Types

The types of the language: the built-in ones, functions of any number of inputs, pairs, data types,
which are known by their name alone, and the type of what one constructor builds, which is tagged
with its data type.

Two types *agree* if they differ at most in that a constructor's type stands for its data type. Two
types have the *same tag* if they agree at the top, whatever their components are.

## Main definitions

* `Ty`, `Ty.text`: types and how they are written.
* `Ty.agrees`: agreement, the equality that checking uses.
* `Ty.sameTag`: agreement at the top.
* `Ty.same`: equality, as a test; `Ty.same_iff` says so.
-/

namespace Casewise

/-- The types of the language. -/
inductive Ty where
  | prim (name : String)
  /-- A function from several inputs to an output. -/
  | arrow (inputs : List Ty) (output : Ty)
  | pair (first second : Ty)
  /-- A data type, known by its name alone. -/
  | data (name : String)
  /-- What the constructor `name` of the data type `owner` builds from arguments of types `args`. -/
  | construct (name : String) (args : List Ty) (owner : String)
  deriving Repr, Inhabited

namespace Ty

/-- The type of natural numbers. -/
def nat : Ty :=
  prim "Nat"

/-- The type of truth values. -/
def bool : Ty :=
  prim "Bool"

/-- The type of strings. -/
def str : Ty :=
  prim "Str"

/-- The built-in type called `name`. -/
def builtin? (name : String) : Option Ty :=
  if name = "Nat" then some nat
  else if name = "Bool" then some bool
  else if name = "Str" then some str
  else none

/-! ### Writing types -/

mutual

/-- The type as a program writes it. A constructor's type is written as its data type. -/
def text : Ty → String
  | prim name => name
  | arrow inputs output => Text.parenthesized ("->" :: (texts inputs ++ [text output]))
  | pair first second => Text.parenthesized ["pair", text first, text second]
  | data name => name
  | construct _ _ owner => owner

/-- The types written out one by one. -/
def texts : List Ty → List String
  | [] => []
  | ty :: tys => text ty :: texts tys

end

theorem texts_eq_map (tys : List Ty) : texts tys = tys.map text := by
  induction tys with
  | nil => rfl
  | cons ty tys ih => simp [texts, ih]

/-! ### Agreement -/

/-- The data type that the values of a type belong to, if they belong to one. -/
def owner? : Ty → Option String
  | data name => some name
  | construct _ _ owner => some owner
  | _ => none

/-- Agreement at the top: both belong to data types, or both are the same built-in type, or both
are functions, or both are pairs. -/
def sameTag : Ty → Ty → Bool
  | prim name, prim name' => name = name'
  | arrow .., arrow .. => true
  | pair .., pair .. => true
  | a, b => a.owner?.isSome && b.owner?.isSome

mutual

/-- Agreement: equality up to reading every constructor's type as its data type. -/
def agrees : Ty → Ty → Bool
  | prim name, prim name' => name = name'
  | arrow inputs output, arrow inputs' output' =>
    agreeAll inputs inputs' && agrees output output'
  | pair first second, pair first' second' => agrees first first' && agrees second second'
  | data name, b => b.owner? = some name
  | construct _ _ owner, b => b.owner? = some owner
  | _, _ => false

/-- Agreement of two lists of types, one by one. -/
def agreeAll : List Ty → List Ty → Bool
  | [], [] => true
  | a :: as, b :: bs => agrees a b && agreeAll as bs
  | _, _ => false

end

/-! ### Equality -/

mutual

/-- Whether two types are equal. -/
def same : Ty → Ty → Bool
  | prim name, prim name' => name = name'
  | arrow inputs output, arrow inputs' output' => sameAll inputs inputs' && same output output'
  | pair first second, pair first' second' => same first first' && same second second'
  | data name, data name' => name = name'
  | construct name args owner, construct name' args' owner' =>
    name = name' && sameAll args args' && owner = owner'
  | _, _ => false

/-- Whether two lists of types are equal. -/
def sameAll : List Ty → List Ty → Bool
  | [], [] => true
  | a :: as, b :: bs => same a b && sameAll as bs
  | _, _ => false

end

mutual

/-- `Ty.same` decides equality. -/
theorem same_iff : ∀ {a b : Ty}, same a b = true ↔ a = b
  | prim _, b => by cases b <;> simp [same]
  | arrow inputs output, b => by cases b <;> simp [same, @sameAll_iff inputs, @same_iff output]
  | pair first second, b => by cases b <;> simp [same, @same_iff first, @same_iff second]
  | data _, b => by cases b <;> simp [same]
  | construct _ args _, b => by cases b <;> simp [same, @sameAll_iff args, and_assoc]

theorem sameAll_iff : ∀ {as bs : List Ty}, sameAll as bs = true ↔ as = bs
  | [], bs => by cases bs <;> simp [sameAll]
  | a :: as, bs => by cases bs <;> simp [sameAll, @same_iff a, @sameAll_iff as]

end

instance : DecidableEq Ty :=
  fun _ _ => decidable_of_iff _ same_iff

end Ty

end Casewise

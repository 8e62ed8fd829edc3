import Bindery.TypeTerm.Feed

/-!
# Method keys

An overload is known by its name and the names and types of its arguments. Default literals travel
with the key but take no part in its identity: `MethodKey.cmp`, `MethodKey.identity` and
`MethodKey.feed` all leave them out.
-/

namespace Bindery

structure Argument where
  name : String
  type : TypeTerm
  /-- The default as it is written in the source; a null default is a literal too. -/
  default? : Option String
deriving DecidableEq

namespace Argument

/-- The spellings of a null pointer. -/
def nullLiterals : List String := ["NULL", "nullptr", "__null", "0"]

/-- A pointer argument that defaults to null, which is more than having no default. -/
def hasNullDefault (a : Argument) : Bool :=
  a.type.isPointer && a.default?.any fun text => nullLiterals.contains (Text.trim text)

def withoutDefault (a : Argument) : Argument := { a with default? := none }

def display (a : Argument) : String :=
  a.name ++ ": " ++ a.type.display ++
    match a.default? with
    | some text => " = " ++ text
    | none => ""

end Argument

structure MethodKey where
  name : String
  args : List Argument
deriving DecidableEq

namespace MethodKey

def display (k : MethodKey) : String :=
  k.name ++ "(" ++ Text.join ", " (k.args.map Argument.display) ++ ")"

def isDestructor (k : MethodKey) : Bool := k.name.toList.head? == some '~'

/-- A leading underscore marks a member as private. -/
def isPrivateName (name : String) : Bool := name.toList.head? == some '_'

/-- Name, then argument count, then argument types, then argument names. -/
def cmp : MethodKey → MethodKey → Ordering :=
  compareLex (compareOn name) <| compareLex (compareOn fun k => k.args.length) <|
    compareLex (fun a b => List.compareLex TypeTerm.cmp (a.args.map (·.type)) (b.args.map (·.type)))
      (fun a b => List.compareLex compare (a.args.map (·.name)) (b.args.map (·.name)))

/-- What an overload is known by. -/
def identity (k : MethodKey) : String × List (String × TypeTerm) :=
  (k.name, k.args.map fun a => (a.name, a.type))

/-- What a hasher is fed: the name, the number of arguments, and the name and type of each. -/
def feed (k : MethodKey) : List HashInput :=
  .text k.name :: .number k.args.length :: k.args.flatMap fun a => .text a.name :: a.type.feed

instance : Hashable MethodKey := ⟨fun k => HashInput.digest k.feed⟩

/-- Whether two keys stand for the same overload. -/
def same (a b : MethodKey) : Bool := cmp a b == .eq

instance : Std.TransCmp cmp := by
  have types : Std.TransCmp fun a b : MethodKey =>
      List.compareLex TypeTerm.cmp (a.args.map (·.type)) (b.args.map (·.type)) :=
    { eq_swap := Std.OrientedCmp.eq_swap, isLE_trans := Std.TransCmp.isLE_trans }
  have names : Std.TransCmp fun a b : MethodKey =>
      List.compareLex compare (a.args.map (·.name)) (b.args.map (·.name)) :=
    { eq_swap := Std.OrientedCmp.eq_swap, isLE_trans := Std.TransCmp.isLE_trans }
  unfold cmp
  infer_instance

theorem map_pair_inj {l r : List Argument} (ht : l.map (·.type) = r.map (·.type))
    (hn : l.map (·.name) = r.map (·.name)) :
    l.map (fun a => (a.name, a.type)) = r.map fun a => (a.name, a.type) := by
  induction l generalizing r with
  | nil => cases r <;> simp_all
  | cons a l ih =>
    cases r with
    | nil => simp at ht
    | cons b r =>
      simp only [List.map_cons, List.cons.injEq] at ht hn ⊢
      exact ⟨by rw [ht.1, hn.1], ih ht.2 hn.2⟩

/-- Keys compare equal exactly when names, argument names and argument types agree. -/
theorem cmp_eq_iff {a b : MethodKey} : cmp a b = .eq ↔ a.identity = b.identity := by
  simp only [cmp, compareLex, Ordering.then_eq_eq, compareOn, identity, Prod.mk.injEq,
    Std.LawfulEqCmp.compare_eq_iff_eq]
  constructor
  · rintro ⟨hname, -, ht, hn⟩
    exact ⟨hname, map_pair_inj ht hn⟩
  · rintro ⟨hname, h⟩
    have ht := congrArg (List.map Prod.snd) h
    have hn := congrArg (List.map Prod.fst) h
    simp only [List.map_map, Function.comp_def] at ht hn
    exact ⟨hname, by simpa using congrArg List.length h, ht, hn⟩

/-- How many leading arguments stand outside the trailing run of defaults. -/
def mandatory : List Argument → Nat
  | [] => 0
  | a :: rest => if a.default?.isSome && mandatory rest == 0 then 0 else mandatory rest + 1

/-- The index of the first argument of the trailing run of defaults. -/
def firstDefaulted (k : MethodKey) : Nat := mandatory k.args

theorem mandatory_le_length (l : List Argument) : mandatory l ≤ l.length := by
  induction l with
  | nil => simp [mandatory]
  | cons a rest ih =>
    rw [mandatory]
    split <;> simp only [List.length_cons] <;> omega

end MethodKey

end Bindery

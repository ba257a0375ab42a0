import Mathlib.Data.List.Nodup
import Casewise.Proofs.Scope.History

/-!
# Registries as indexes

A registry answers in two directions, from two tables: which constructors a data type has, and what
a constructor is. Declaring a data type writes its constructors into the one and then, one by one,
into the other. So between the writes of a declaration the tables are out of step, and they are in
step again after it: a declaration writes nothing before all of its names are known to be new, and
once it writes, it writes all of it. The tables are in step after any history (`IsIndexed`), and
what has been answered once stays.

All scopes below one root share a registry, and scopes below different roots do not.

## Main definitions

* `Registry.IsIndexed`: the two tables are in step.
* `Registry.Refuses`, `Registry.Adds`: how a declaration ends.
* `Forest.HasRegistries`: how scopes share registries.

## Main statements

* `Registry.IsIndexed.constructor?_eq_some_iff`: the two directions of an index.
* `Registry.declare_eq_error_iff`, `Registry.adds_of_declare`: when a declaration fails, and what it
  adds if it does not.
* `History.sameTree_iff`: which scopes share a registry.
* `History.registries_indexed`: the registries after any history.
-/

namespace Casewise

/-! ### One registry -/

namespace Registry

/-- The two tables are in step. -/
structure IsIndexed (R : Registry) : Prop where
  /-- A constructor listed with a data type belongs to it. -/
  data_eq : ∀ name infos, R.data? name = some infos → ∀ info ∈ infos, info.data = name
  /-- A data type lists no name twice. -/
  nodup : ∀ name infos, R.data? name = some infos → (infos.map ConstructorInfo.name).Nodup
  /-- A constructor listed with a data type is filed under its name. -/
  filed : ∀ name infos, R.data? name = some infos → ∀ info ∈ infos,
    R.constructor? info.name = some info
  /-- A constructor that is filed is listed with its data type. -/
  listed : ∀ c info, R.constructor? c = some info →
    ∃ infos, R.data? info.data = some infos ∧ info ∈ infos

/-- What stands in the way of declaring the data type `name` with the constructors `constructors`:
the data type, if it is declared, or else the first constructor that is declared or repeats an
earlier one. -/
inductive Refuses (R : Registry) (name : String) (constructors : List (String × List Ty)) :
    LangError → Prop
  | data (hname : R.data? name ≠ none) :
    Refuses R name constructors { cause := .redefinition name }
  /-- The constructor `c` is declared or repeats one of those `before` it, and those are new. -/
  | constructor {before after : List String} {c : String} (hname : R.data? name = none)
    (hsplit : constructors.map Prod.fst = before ++ c :: after)
    (hnew : ∀ b ∈ before, R.constructor? b = none) (hnodup : before.Nodup)
    (hclash : R.constructor? c ≠ none ∨ c ∈ before) :
    Refuses R name constructors { cause := .redefinition c }

/-- The registry `R'` is `R` with the data type `name` and its constructors, in order, and it
answers whatever else is asked as `R` does. -/
structure Adds (R : Registry) (name : String) (constructors : List (String × List Ty))
    (R' : Registry) : Prop where
  /-- The data type comes last. -/
  entries : R'.types.entries =
    R.types.entries ++ [(name, constructors.map fun c => ⟨c.1, name, c.2⟩)]
  /-- The constructors come last, in order. -/
  constructors_eq : R'.constructors = R.constructors ++ constructors.map fun c => ⟨c.1, name, c.2⟩
  /-- The answers about data types. -/
  data? : ∀ other, R'.data? other =
    if other = name then some (constructors.map fun c => ⟨c.1, name, c.2⟩) else R.data? other
  /-- The answers about the declared constructors. -/
  constructor?_of_mem : ∀ c fields, (c, fields) ∈ constructors →
    R.constructor? c = none ∧ R'.constructor? c = some ⟨c, name, fields⟩
  /-- The answers about all other constructors. -/
  constructor?_of_notMem : ∀ c, c ∉ constructors.map Prod.fst →
    R'.constructor? c = R.constructor? c

variable {R R' : Registry} {name : String} {constructors : List (String × List Ty)}

/-- The empty registry `IsIndexed`. -/
theorem isIndexed_empty : IsIndexed {} where
  data_eq _ _ h := by cases h
  nodup _ _ h := by cases h
  filed _ _ h := by cases h
  listed _ _ h := by cases h

namespace IsIndexed

variable (h : R.IsIndexed)

include h

/-- The two directions of an index: a name is a constructor exactly if a constructor of this name is
listed with its data type. `constructor?` looks in one table and `data?` in the other. -/
theorem constructor?_eq_some_iff {c : String} {info : ConstructorInfo} :
    R.constructor? c = some info ↔
      ∃ infos, R.data? info.data = some infos ∧ info ∈ infos ∧ info.name = c := by
  constructor
  · intro hinfo
    obtain ⟨infos, hdata, hmem⟩ := h.listed c info hinfo
    exact ⟨infos, hdata, hmem, name_of_constructor? hinfo⟩
  · rintro ⟨infos, hdata, hmem, rfl⟩
    exact h.filed _ infos hdata info hmem

/-- In a registry that `IsIndexed`, no name is given to constructors of two data types. -/
theorem disjoint_names {infos infos' : List ConstructorInfo} {name' : String}
    (hdata : R.data? name = some infos) (hdata' : R.data? name' = some infos')
    (hne : name' ≠ name) :
    ∀ c ∈ infos.map ConstructorInfo.name, c ∉ infos'.map ConstructorInfo.name := by
  intro c hc hc'
  obtain ⟨info, hinfo, hname⟩ := List.mem_map.mp hc
  obtain ⟨info', hinfo', hname'⟩ := List.mem_map.mp hc'
  have hfiled := h.filed name infos hdata info hinfo
  have hfiled' := h.filed name' infos' hdata' info' hinfo'
  rw [hname'.trans hname.symm, hfiled] at hfiled'
  obtain rfl := Option.some.inj hfiled'
  have howner := h.data_eq name infos hdata info hinfo
  exact hne ((h.data_eq name' infos' hdata' info hinfo').symm.trans howner)

end IsIndexed

/-! ### One declaration -/

/-- The `firstClash` is a name that is declared, or listed earlier or before itself; all names
before it are free. -/
theorem firstClash_eq_some_iff {earlier names : List String} {c : String} :
    R.firstClash earlier names = some c ↔
      ∃ before after, names = before ++ c :: after ∧
        (∀ b ∈ before, R.constructor? b = none ∧ b ∉ earlier) ∧ before.Nodup ∧
          (R.constructor? c ≠ none ∨ c ∈ earlier ∨ c ∈ before) := by
  induction names generalizing earlier with
  | nil => exact iff_of_false (fun h => (by cases h)) (by rintro ⟨before, after, h, -⟩; simp at h)
  | cons name names ih =>
    rw [firstClash]
    by_cases hclash : (R.constructor? name).isSome = true ∨ name ∈ earlier
    · rw [if_pos hclash, Option.some.injEq]
      rw [Option.isSome_iff_ne_none] at hclash
      constructor
      · rintro rfl
        refine ⟨[], names, rfl, fun b hb => (by cases hb), .nil, ?_⟩
        exact hclash.imp_right .inl
      · rintro ⟨before, after, hsplit, hfree, -, -⟩
        cases before with
        | nil => exact (List.cons.inj hsplit).1
        | cons b before =>
          obtain rfl := (List.cons.inj hsplit).1
          obtain ⟨hnone, hnew⟩ := hfree name List.mem_cons_self
          exact absurd hclash (not_or.mpr ⟨not_not.mpr hnone, hnew⟩)
    · rw [if_neg hclash, ih]
      rw [Option.isSome_iff_ne_none, not_or, not_not] at hclash
      constructor
      · rintro ⟨before, after, rfl, hfree, hnodup, hc⟩
        refine ⟨name :: before, after, rfl, ?_, ?_, ?_⟩
        · rintro b (_ | ⟨_, hb⟩)
          · exact hclash
          · exact ⟨(hfree b hb).1, fun h => (hfree b hb).2 (List.mem_cons_of_mem _ h)⟩
        · exact List.nodup_cons.mpr ⟨fun h => (hfree name h).2 List.mem_cons_self, hnodup⟩
        · simp only [List.mem_cons] at hc ⊢
          tauto
      · rintro ⟨before, after, hsplit, hfree, hnodup, hc⟩
        cases before with
        | nil =>
          obtain ⟨rfl, -⟩ := List.cons.inj hsplit
          exact absurd hc (not_or.mpr ⟨not_not.mpr hclash.1, by simpa using hclash.2⟩)
        | cons b before =>
          obtain ⟨rfl, rfl⟩ := List.cons.inj hsplit
          obtain ⟨hname, hnodup⟩ := List.nodup_cons.mp hnodup
          refine ⟨before, after, rfl, fun b hb => ?_, hnodup, ?_⟩
          · obtain ⟨hnone, hnew⟩ := hfree b (List.mem_cons_of_mem _ hb)
            refine ⟨hnone, fun h => ?_⟩
            rcases List.mem_cons.mp h with rfl | h
            · exact hname hb
            · exact hnew h
          · simp only [List.mem_cons] at hc ⊢
            tauto

/-- `Registry.declare` fails exactly if something stands in its way (`Refuses`), and with that
error. -/
theorem declare_eq_error_iff {e : LangError} :
    (outcome (declare name constructors) R).1 = .error e ↔ R.Refuses name constructors e := by
  rw [outcome_declare]
  by_cases hname : (R.data? name).isSome = true
  · rw [if_pos hname]
    rw [Option.isSome_iff_ne_none] at hname
    constructor
    · intro h
      cases h
      exact .data hname
    · intro h
      cases h with
      | data => rfl
      | constructor hnone => exact absurd hnone hname
  · rw [if_neg hname]
    rw [Option.isSome_iff_ne_none, not_not] at hname
    cases hclash : R.firstClash [] (constructors.map Prod.fst) with
    | none =>
      refine iff_of_false (fun h => (by cases h)) fun h => ?_
      cases h with
      | data hsome => exact hsome hname
      | @constructor before after c _ hsplit hnew hnodup hc =>
        have := firstClash_eq_some_iff.mpr ⟨before, after, hsplit,
          fun b hb => ⟨hnew b hb, List.not_mem_nil⟩, hnodup, hc.imp_right .inr⟩
        rw [hclash] at this
        cases this
    | some clash =>
      obtain ⟨before, after, hsplit, hfree, hnodup, hc⟩ := firstClash_eq_some_iff.mp hclash
      constructor
      · intro h
        cases h
        refine .constructor hname hsplit (fun b hb => (hfree b hb).1) hnodup ?_
        exact hc.imp_right fun h => h.resolve_left List.not_mem_nil
      · intro h
        cases h with
        | data hsome => exact absurd hname hsome
        | @constructor before' after' c _ hsplit' hnew' hnodup' hc' =>
          have hfirst := firstClash_eq_some_iff.mpr ⟨before', after', hsplit',
            fun b hb => ⟨hnew' b hb, List.not_mem_nil⟩, hnodup', hc'.imp_right .inr⟩
          rw [hclash, Option.some.injEq] at hfirst
          rw [hfirst]

/-- Some error `Refuses` a declaration exactly if the data type is declared, or one of the
constructors is declared or repeats an earlier one. -/
theorem exists_refuses_iff :
    (∃ e, R.Refuses name constructors e) ↔
      R.data? name ≠ none ∨ (∃ c ∈ constructors.map Prod.fst, R.constructor? c ≠ none) ∨
        ¬ (constructors.map Prod.fst).Nodup := by
  constructor
  · rintro ⟨e, hdata | @⟨before, after, c, -, hsplit, -, -, hc⟩⟩
    · exact .inl hdata
    · rw [hsplit]
      rcases hc with hdeclared | hmem
      · exact .inr (.inl ⟨c, List.mem_append_right before List.mem_cons_self, hdeclared⟩)
      · refine .inr (.inr fun hnodup => ?_)
        exact (List.nodup_append.mp hnodup).2.2 c hmem c List.mem_cons_self rfl
  · intro hclash
    rcases hdeclare : outcome (declare name constructors) R with ⟨e | u, R'⟩
    · exact ⟨e, declare_eq_error_iff.mp (congrArg Prod.fst hdeclare)⟩
    · obtain ⟨hname, hnew, hnodup, -⟩ := declare_eq_ok hdeclare
      rcases hclash with hdata | ⟨c, hc, hdeclared⟩ | hrepeats
      · exact absurd hname hdata
      · exact absurd (hnew c hc) hdeclared
      · exact absurd hnodup hrepeats

/-- What a `declare` that succeeds `Adds`. -/
theorem adds_of_declare (h : outcome (declare name constructors) R = (.ok (), R')) :
    R.Adds name constructors R' := by
  obtain ⟨hname, hnew, -, htypes, -⟩ := declare_eq_ok h
  refine ⟨?_, constructors_of_declare h, data?_of_declare h, fun c fields hc => ?_,
    fun c hc => constructor?_of_declare_of_notMem h hc⟩
  · rw [htypes, Table.entries_insert_of_get?_eq_none hname]
  · exact ⟨hnew c (List.mem_map_of_mem hc), constructor?_of_declare_of_mem h hc⟩

/-- `declare` keeps a registry `IsIndexed`. -/
theorem IsIndexed.of_declare (hR : R.IsIndexed)
    (h : outcome (declare name constructors) R = (.ok (), R')) : R'.IsIndexed := by
  obtain ⟨hname, -, hnodup, -⟩ := declare_eq_ok h
  -- a data type is the declared one, or it was listed before
  have hcases {other infos} (hinfos : R'.data? other = some infos) :
      other = name ∧ infos = constructors.map (fun c => ⟨c.1, name, c.2⟩) ∨
        R.data? other = some infos := by
    rw [data?_of_declare h] at hinfos
    split at hinfos
    · next heq => exact .inl ⟨heq, (Option.some.inj hinfos).symm⟩
    · exact .inr hinfos
  refine ⟨fun other infos hinfos info hinfo => ?_, fun other infos hinfos => ?_,
    fun other infos hinfos info hinfo => ?_, fun c info hinfo => ?_⟩
  · obtain ⟨rfl, rfl⟩ | hold := hcases hinfos
    · obtain ⟨c, -, rfl⟩ := List.mem_map.mp hinfo
      rfl
    · exact hR.data_eq other infos hold info hinfo
  · obtain ⟨rfl, rfl⟩ | hold := hcases hinfos
    · rwa [List.map_map]
    · exact hR.nodup other infos hold
  · obtain ⟨rfl, rfl⟩ | hold := hcases hinfos
    · obtain ⟨c, hc, rfl⟩ := List.mem_map.mp hinfo
      exact constructor?_of_declare_of_mem h hc
    · exact le_of_declare h _ _ (hR.filed other infos hold info hinfo)
  · rcases (constructor?_of_declare h).mp hinfo with hold | ⟨fields, hc, rfl⟩
    · obtain ⟨infos, hdata, hmem⟩ := hR.listed c info hold
      have hne : info.data ≠ name := fun heq => by rw [heq, hname] at hdata; cases hdata
      exact ⟨infos, by rw [data?_of_declare h, if_neg hne, hdata], hmem⟩
    · have hdata := (data?_of_declare h name).trans (if_pos rfl)
      exact ⟨_, hdata, List.mem_map.mpr ⟨(c, fields), hc, rfl⟩⟩

end Registry

/-! ### The registries of a forest -/

variable {α : Type}

namespace Forest

/-- The number of the registry that knows the data types declared in the scope `s`. -/
def number? (f : Forest α) (s : ScopeId) : Option Nat :=
  f.scopes[s]?.map Scope.registry

/-- Every root has a registry of its own, and the scopes below it have the same one. -/
structure HasRegistries (f : Forest α) : Prop where
  /-- The registry of a scope is one of the forest. -/
  lt_size : ∀ s n, f.number? s = some n → n < f.registries.size
  /-- A scope has the registry of its parent. -/
  parent : ∀ s p, f.parent? s = some p → f.number? s = f.number? p
  /-- No two roots have the same registry. -/
  root : ∀ s t n, f.parent? s = none → f.parent? t = none → f.number? s = some n →
    f.number? t = some n → s = t
  /-- Every registry is an index. -/
  isIndexed : ∀ R ∈ f.registries, R.IsIndexed

section Registries

variable {f f' : Forest α} {s t : ScopeId}

theorem exists_number? (hs : s < f.scopes.size) : ∃ n, f.number? s = some n := by
  rw [number?, Array.getElem?_eq_getElem hs]
  exact ⟨_, rfl⟩

/-- The registry of a scope is the one with its `number?`. -/
theorem registry_eq_of_number? {n : Nat} (h : f.number? s = some n) :
    f.registry s = f.registries[n]?.getD {} := by
  rw [number?] at h
  rw [registry]
  cases hs : f.scopes[s]? with
  | none => rw [hs] at h; cases h
  | some scope => rw [hs] at h; cases h; rfl

theorem number?_congr (h : f'.scopes = f.scopes) (s : ScopeId) : f'.number? s = f.number? s := by
  rw [number?, number?, h]

/-- `write` leaves the registries of the scopes alone. -/
theorem number?_write (f : Forest α) (s t : ScopeId) (name : String) (a : α) :
    (f.write s name a).number? t = f.number? t := by
  rw [number?, number?, write, Array.getElem?_modify]
  split
  · rw [Option.map_map]
    rfl
  · rfl

theorem number?_newRoot_of_ne (h : t ≠ f.scopes.size) (bound : Table α) :
    (f.newRoot bound).2.number? t = f.number? t := by
  rw [number?, number?, newRoot, Array.getElem?_push, if_neg h]

theorem number?_newRoot_self (f : Forest α) (bound : Table α) :
    (f.newRoot bound).2.number? f.scopes.size = some f.registries.size := by
  rw [number?, newRoot, Array.getElem?_push_size]
  rfl

theorem number?_extend_of_ne (h : t ≠ f.scopes.size) (s : ScopeId) (bound : Table α) :
    (f.extend s bound).2.number? t = f.number? t := by
  rw [number?, number?, extend, Array.getElem?_push, if_neg h]

theorem number?_extend_self (hs : s < f.scopes.size) (bound : Table α) :
    (f.extend s bound).2.number? f.scopes.size = f.number? s := by
  obtain ⟨n, hn⟩ := exists_number? hs
  rw [number?, extend, Array.getElem?_push_size]
  rw [number?] at hn ⊢
  rw [hn]
  rfl

/-- `Forest.declare` fails in a scope as its registry `Refuses` the declaration. -/
theorem declare_eq_error_iff {name : String} {constructors : List (String × List Ty)}
    {e : LangError} : (outcome (Forest.declare s name constructors) f).1 = .error e ↔
      (f.registry s).Refuses name constructors e :=
  Registry.declare_eq_error_iff

/-- `Forest.declare` in a scope makes its registry grow. -/
theorem declare_eq_ok (hs : s < f.scopes.size) {name : String}
    {constructors : List (String × List Ty)}
    (h : outcome (Forest.declare s name constructors) f = (.ok (), f')) :
    ∃ n R', f.number? s = some n ∧
      outcome (Registry.declare name constructors) (f.registry s) = (.ok (), R') ∧
        f' = { f with registries := f.registries.modify n fun _ => R' } := by
  obtain ⟨R', hR', rfl⟩ := outcome_declare_eq.mp h
  have hscope := Array.getElem?_eq_getElem hs
  refine ⟨f.scopes[s].registry, R', ?_, hR', ?_⟩
  · rw [number?, hscope]
    rfl
  · rw [setRegistry, hscope]

namespace HasRegistries

/-- The registry of a scope `IsIndexed`. -/
theorem isIndexed_registry (h : f.HasRegistries) (hs : s < f.scopes.size) :
    (f.registry s).IsIndexed := by
  obtain ⟨n, hn⟩ := exists_number? hs
  rw [registry_eq_of_number? hn, Array.getElem?_eq_getElem (h.lt_size s n hn)]
  exact h.isIndexed _ (Array.getElem_mem _)

/-- The registries after the one with the number `n` has become `R'`. -/
theorem registry_modify (h : f.HasRegistries) {n : Nat} {R' : Registry}
    (hf' : f' = { f with registries := f.registries.modify n fun _ => R' })
    (ht : t < f.scopes.size) :
    (f.number? t = some n → f'.registry t = R') ∧
      (f.number? t ≠ some n → f'.registry t = f.registry t) := by
  obtain ⟨m, hm⟩ := exists_number? ht
  have hm' : f'.number? t = some m := by rw [hf']; exact hm
  have hget : f'.registries[m]? = if n = m then f.registries[m]?.map fun _ => R'
      else f.registries[m]? := by rw [hf', Array.getElem?_modify]
  rw [registry_eq_of_number? hm', registry_eq_of_number? hm, hget, hm]
  constructor
  · intro hn
    rw [if_pos (Option.some.inj hn).symm, Array.getElem?_eq_getElem (h.lt_size t m hm)]
    rfl
  · intro hn
    rw [if_neg fun heq => hn (congrArg some heq.symm)]

/-- Where the scopes stand in the same places and have the same numbers, and a registry that is new
`IsIndexed`, the forest `HasRegistries` as well. -/
theorem of_number?_eq (h : f.HasRegistries) (hpath : ∀ t, f'.path t = f.path t)
    (hnumber : ∀ t, f'.number? t = f.number? t)
    (hsize : f'.registries.size = f.registries.size)
    (hindexed : ∀ R ∈ f'.registries, R.IsIndexed) : f'.HasRegistries := by
  have hparent := parent?_congr hpath
  refine ⟨fun s n => ?_, fun s p => ?_, fun s t n => ?_, hindexed⟩
  · rw [hnumber, hsize]
    exact h.lt_size s n
  · rw [hparent, hnumber, hnumber]
    exact h.parent s p
  · rw [hparent, hparent, hnumber, hnumber]
    exact h.root s t n

theorem write (h : f.HasRegistries) (s : ScopeId) (name : String) (a : α) :
    (f.write s name a).HasRegistries :=
  h.of_number?_eq (path_write f s · name a) (number?_write f s · name a) rfl h.isIndexed

/-- `declare` of a data type keeps `HasRegistries`. -/
theorem declare (h : f.HasRegistries) (hs : s < f.scopes.size) {name : String}
    {constructors : List (String × List Ty)}
    (hdeclare : outcome (Forest.declare s name constructors) f = (.ok (), f')) :
    f'.HasRegistries := by
  have hscopes := scopes_of_declare hdeclare
  obtain ⟨n, R', -, hR', rfl⟩ := declare_eq_ok hs hdeclare
  refine h.of_number?_eq (path_congr hscopes) (number?_congr hscopes) (Array.size_modify ..) ?_
  intro R hR
  obtain ⟨m, hm, rfl⟩ := Array.mem_iff_getElem.mp hR
  rw [Array.getElem_modify]
  split
  · exact (h.isIndexed_registry hs).of_declare hR'
  · exact h.isIndexed _ (Array.getElem_mem _)

/-- A new root has a registry of its own, and the forest still `HasRegistries`. -/
theorem newRoot (h : f.HasRegistries) (hlinked : f.IsLinked) (bound : Table α) :
    (f.newRoot bound).2.HasRegistries := by
  have hparent := (hlinked.newRoot bound).2
  have hnew := number?_newRoot_self f bound
  have hold {t : ScopeId} (ht : t ≠ f.scopes.size) := number?_newRoot_of_ne ht bound
  refine ⟨fun s n hn => ?_, fun s p hp => ?_, fun s t n hs ht hns hnt => ?_, fun R hR => ?_⟩
  · have hsize : (f.newRoot bound).2.registries.size = f.registries.size + 1 := Array.size_push _
    rw [hsize]
    by_cases hs : s = f.scopes.size
    · rw [hs, hnew] at hn
      cases hn
      exact Nat.lt_succ_self _
    · exact Nat.lt_succ_of_lt (h.lt_size s n (hold hs ▸ hn))
  · rw [hparent] at hp
    have hs := Nat.ne_of_lt (lt_size_of_parent? hp)
    have hp' := Nat.ne_of_lt (hlinked.parent_lt_size hp)
    rw [hold hs, hold hp']
    exact h.parent s p hp
  · rw [hparent] at hs ht
    -- the number of the new root is that of no old scope
    have hfresh {u : ScopeId} (hu : u ≠ f.scopes.size)
        (hnu : (f.newRoot bound).2.number? u = some n) : n < f.registries.size :=
      h.lt_size u n (hold hu ▸ hnu)
    by_cases hs' : s = f.scopes.size <;> by_cases ht' : t = f.scopes.size
    · rw [hs', ht']
    · rw [hs', hnew] at hns
      cases hns
      exact absurd (hfresh ht' hnt) (Nat.lt_irrefl _)
    · rw [ht', hnew] at hnt
      cases hnt
      exact absurd (hfresh hs' hns) (Nat.lt_irrefl _)
    · exact h.root s t n hs ht (hold hs' ▸ hns) (hold ht' ▸ hnt)
  · rcases Array.mem_push.mp hR with hR | rfl
    · exact h.isIndexed R hR
    · exact Registry.isIndexed_empty

/-- A new scope shares the registry of the scope that it is made in, and the forest still
`HasRegistries`. -/
theorem extend (h : f.HasRegistries) (hlinked : f.IsLinked) (hs : s < f.scopes.size)
    (bound : Table α) : (f.extend s bound).2.HasRegistries := by
  obtain ⟨-, hparentNew, hparent⟩ := hlinked.extend hs bound
  have hnew := number?_extend_self hs bound
  have hold {t : ScopeId} (ht : t ≠ f.scopes.size) := number?_extend_of_ne ht s bound
  have hroot {t : ScopeId} (ht : (f.extend s bound).2.parent? t = none) : t ≠ f.scopes.size := by
    rintro rfl
    rw [hparentNew] at ht
    cases ht
  refine ⟨fun t n hn => ?_, fun t p hp => ?_, fun t u n ht hu hnt hnu => ?_, h.isIndexed⟩
  · by_cases ht : t = f.scopes.size
    · exact h.lt_size s n (hnew ▸ ht ▸ hn)
    · exact h.lt_size t n (hold ht ▸ hn)
  · by_cases ht : t = f.scopes.size
    · rw [ht, hparentNew, Option.some.injEq] at hp
      rw [ht, hnew, ← hp, hold (Nat.ne_of_lt hs)]
    · rw [hparent t ht] at hp
      have hp' := Nat.ne_of_lt (hlinked.parent_lt_size hp)
      rw [hold ht, hold hp']
      exact h.parent t p hp
  · have ht' := hroot ht
    have hu' := hroot hu
    exact h.root t u n (hparent t ht' ▸ ht) (hparent u hu' ▸ hu) (hold ht' ▸ hnt) (hold hu' ▸ hnu)

end HasRegistries

end Registries

end Forest

/-! ### Histories -/

namespace History

open Forest (Operation)

variable {h : History α}

/-- The forest of a history `HasRegistries`. -/
theorem hasRegistries (hpossible : h.IsPossible) : h.forest.HasRegistries := by
  induction h with
  | nil =>
    refine ⟨fun s n hn => ?_, fun s p hp => ?_, fun s t n _ _ hns => ?_, fun R hR => ?_⟩
    · cases hn
    · cases hp
    · cases hns
    · cases hR with | mk hR => cases hR
  | cons op h ih =>
    obtain ⟨hbefore, hscope⟩ := hpossible
    have hregistries := ih hbefore
    have hlinked := isLinked hbefore
    refine Forest.after_cases (motive := Forest.HasRegistries) (forest h) op ?newRoot ?extend ?set
      ?update ?declare ?fails
    case newRoot =>
      rintro bindings rfl
      exact hregistries.newRoot hlinked bindings
    case extend =>
      rintro s bindings rfl
      exact hregistries.extend hlinked (hscope s rfl) bindings
    case set =>
      rintro s name a rfl -
      exact hregistries.write s name a
    case update =>
      rintro s t name a rfl -
      exact hregistries.write t name a
    case declare =>
      rintro s name constructors f' rfl hdeclare
      exact hregistries.declare (hscope s rfl) hdeclare
    case fails =>
      intro e _
      exact hregistries

/-- Around every scope stands a root, along `Parent`. -/
theorem exists_root (hpossible : h.IsPossible) :
    ∀ s < h.forest.scopes.size, ∃ r < h.forest.scopes.size,
      Relation.ReflTransGen h.Parent s r ∧ h.forest.parent? r = none := by
  refine (isLinked hpossible).induction fun s hs ih => ?_
  cases hp : h.forest.parent? s with
  | none => exact ⟨s, hs, .refl, hp⟩
  | some p =>
    obtain ⟨r, hr, hreach, hroot⟩ := ih p hp
    exact ⟨r, hr, .head ((parent_iff hpossible).mpr hp) hreach, hroot⟩

/-- A scope has the `number?` of every scope around it. -/
theorem number?_eq_of_reaches (hpossible : h.IsPossible) {s r : ScopeId}
    (hreach : Relation.ReflTransGen h.Parent s r) : h.forest.number? s = h.forest.number? r := by
  induction hreach with
  | refl => rfl
  | tail _ hparent ih =>
    rw [ih]
    exact (hasRegistries hpossible).parent _ _ ((parent_iff hpossible).mp hparent)

/-- Scopes share a registry exactly if they stand at or below one scope: `SameTree` is equality of
`number?`. -/
theorem sameTree_iff (hpossible : h.IsPossible) {s t : ScopeId} (hs : s < h.forest.scopes.size)
    (ht : t < h.forest.scopes.size) :
    h.SameTree s t ↔ h.forest.number? s = h.forest.number? t := by
  constructor
  · rintro ⟨r, hsr, htr⟩
    rw [number?_eq_of_reaches hpossible hsr, number?_eq_of_reaches hpossible htr]
  · intro hnumber
    obtain ⟨r, hr, hsr, hroot⟩ := exists_root hpossible s hs
    obtain ⟨r', hr', htr', hroot'⟩ := exists_root hpossible t ht
    obtain ⟨n, hn⟩ := Forest.exists_number? hr
    have hn' : h.forest.number? r' = some n := by
      rw [← number?_eq_of_reaches hpossible htr', ← hnumber,
        number?_eq_of_reaches hpossible hsr, hn]
    obtain rfl := (hasRegistries hpossible).root r r' n hroot hroot' hn hn'
    exact ⟨r, hsr, htr'⟩

/-- What a `declare` that succeeds does: no scope changes, the registry that the scope shares with
its tree grows, and all others stay. -/
theorem declare_adds (hpossible : h.IsPossible) {s : ScopeId} (hs : s < h.forest.scopes.size)
    {name : String} {constructors : List (String × List Ty)} {f' : Forest α}
    (hdeclare : outcome (Forest.declare s name constructors) h.forest = (.ok (), f')) {t : ScopeId}
    (ht : t < h.forest.scopes.size) :
    (h.SameTree s t → (h.forest.registry t).Adds name constructors (f'.registry t)) ∧
      (¬ h.SameTree s t → f'.registry t = h.forest.registry t) := by
  obtain ⟨n, R', hn, hR', hf'⟩ := Forest.declare_eq_ok hs hdeclare
  obtain ⟨hsame, hother⟩ := (hasRegistries hpossible).registry_modify hf' ht
  rw [sameTree_iff hpossible hs ht, hn]
  refine ⟨fun hnt => ?_, fun hnt => hother (Ne.symm hnt)⟩
  rw [hsame hnt.symm, Forest.registry_eq_of_number? hnt.symm, ← Forest.registry_eq_of_number? hn]
  exact Registry.adds_of_declare hR'

/-- The registries after any history. All scopes of a tree know the same data types, and these fit
together both ways: a name is a constructor (`constructor?`) exactly if a constructor of this name
is listed with its data type (`data?`), and no name is given to two constructors. A data type can be
declared exactly if it is unknown and each of its constructors is unknown and named once, and else
the first name in the way is told and nothing changes. A declaration adds the data type with its
constructors to what the scopes of the tree know, and nothing else. -/
theorem registries_indexed (hpossible : h.IsPossible) {s : ScopeId}
    (hs : s < h.forest.scopes.size) :
    (∀ t < h.forest.scopes.size, h.SameTree s t → h.forest.registry t = h.forest.registry s) ∧
    (∀ c info, (h.forest.registry s).constructor? c = some info ↔
      ∃ infos, (h.forest.registry s).data? info.data = some infos ∧ info ∈ infos ∧
        info.name = c) ∧
    (∀ name infos, (h.forest.registry s).data? name = some infos →
      (infos.map ConstructorInfo.name).Nodup ∧
        ∀ other infos', (h.forest.registry s).data? other = some infos' → other ≠ name →
          ∀ c ∈ infos.map ConstructorInfo.name, c ∉ infos'.map ConstructorInfo.name) ∧
    ∀ name constructors,
      ((∃ e, (outcome (Forest.declare s name constructors) h.forest).1 = .error e) ↔
        (h.forest.registry s).data? name ≠ none ∨
          (∃ c ∈ constructors.map Prod.fst, (h.forest.registry s).constructor? c ≠ none) ∨
            ¬ (constructors.map Prod.fst).Nodup) ∧
      (∀ e, (outcome (Forest.declare s name constructors) h.forest).1 = .error e →
        (h.forest.registry s).Refuses name constructors e ∧
          forest (.declare s name constructors :: h) = h.forest) ∧
      ∀ f', outcome (Forest.declare s name constructors) h.forest = (.ok (), f') →
        forest (.declare s name constructors :: h) = f' ∧ f'.scopes = h.forest.scopes ∧
          ∀ t < h.forest.scopes.size,
            (h.SameTree s t → (h.forest.registry t).Adds name constructors (f'.registry t)) ∧
            (¬ h.SameTree s t → f'.registry t = h.forest.registry t) := by
  have hindexed := (hasRegistries hpossible).isIndexed_registry hs
  refine ⟨fun t ht htree => ?_, fun c info => hindexed.constructor?_eq_some_iff,
    fun name infos hdata => ⟨hindexed.nodup name infos hdata, fun other infos' hdata' hne =>
      hindexed.disjoint_names hdata hdata' hne⟩, fun name constructors => ⟨?_, ?_, ?_⟩⟩
  · obtain ⟨n, hn⟩ := Forest.exists_number? hs
    have hnumber := (sameTree_iff hpossible hs ht).mp htree
    rw [Forest.registry_eq_of_number? hn, Forest.registry_eq_of_number? (hnumber ▸ hn)]
  · simp only [Forest.declare_eq_error_iff]
    exact Registry.exists_refuses_iff
  · intro e he
    exact ⟨Forest.declare_eq_error_iff.mp he, Forest.after_of_error he⟩
  · intro f' hf'
    exact ⟨congrArg Prod.snd hf', Forest.scopes_of_declare hf', fun t ht =>
      declare_adds hpossible hs hf' ht⟩

/-- Two trees of scopes. In the first, a data type has been declared in the inner scope, and
declaring another one with one of its constructors has failed at the root. The second tree has its
own data type with a constructor of the same name. -/
private def twoTrees : History Nat :=
  [.declare 2 "Tree" [("Leaf", [])], .newRoot ∅,
    .declare 0 "Twig" [("Bud", []), ("Leaf", [])], .declare 1 "Branch" [("Fork", []), ("Leaf", [])],
    .extend 0 ∅, .newRoot ∅]

/-- In `twoTrees` the name that stood in the way stands in the way still, and what was declared
inside is known at the root. -/
theorem registries_indexed_twoTrees :
    IsPossible twoTrees ∧ 0 < (forest twoTrees).scopes.size ∧
      ((forest twoTrees).registry 0).Refuses "Twig" [("Bud", []), ("Leaf", [])]
        { cause := .redefinition "Leaf" } ∧
      (∃ infos, ((forest twoTrees).registry 0).data? "Branch" = some infos ∧
        ⟨"Leaf", "Branch", []⟩ ∈ infos) ∧
      ∃ f', outcome (Forest.declare 0 "Twig" [("Bud", [])]) (forest twoTrees) = (.ok (), f') ∧
        f'.scopes = (forest twoTrees).scopes := by
  have hpossible : IsPossible twoTrees := by
    refine ⟨⟨⟨⟨⟨⟨trivial, ?_⟩, ?_⟩, ?_⟩, ?_⟩, ?_⟩, ?_⟩
    all_goals
      intro s hs
      cases hs
    all_goals decide
  have hsize : 0 < (forest twoTrees).scopes.size := by decide
  obtain ⟨-, hindex, -, hdeclare⟩ := registries_indexed hpossible hsize
  obtain ⟨-, hfails, -⟩ := hdeclare "Twig" [("Bud", []), ("Leaf", [])]
  obtain ⟨-, -, hsucceeds⟩ := hdeclare "Twig" [("Bud", [])]
  obtain ⟨infos, hdata, hmem, -⟩ := (hindex "Leaf" ⟨"Leaf", "Branch", []⟩).mp rfl
  exact ⟨hpossible, hsize, (hfails _ rfl).1, ⟨infos, hdata, hmem⟩, _, rfl,
    (hsucceeds _ rfl).2.1⟩

end History

end Casewise

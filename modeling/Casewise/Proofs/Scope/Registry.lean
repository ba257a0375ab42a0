import Mathlib.Data.List.Nodup
import Casewise.Scope.Registry
import Casewise.Proofs.Outcome
import Casewise.Proofs.Table

/-!
# Growing registries

`Registry.declare` goes through the constructors twice: first it lists them, and stops at the first
name in the way, and then it files them. Nothing is written before the whole list is known to be
free, so a declaration that fails leaves the registry as it was, and one that succeeds adds the data
type to the one table and its constructors to the other (`outcome_declare`).

`R ≤ R'` says that `R'` knows every constructor of `R` as `R` does; whatever is true of a program
because of the constructors it uses stays true while further data types are declared.

## Main definitions

* `Registry.firstClash`: the first name in the way of a declaration.
* `Registry.extended`: a registry with a data type and its constructors filed.

## Main statements

* `Registry.outcome_declare`: how a declaration ends, and what it leaves.
* `Registry.le_of_declare`: declaring a data type only adds constructors.
* `Registry.constructor?_of_declare`: the constructors known after a declaration.
-/

namespace Casewise.Registry

/-- `R ≤ R'` says that every constructor of `R` is one of `R'`, of the same data type and with the
same fields. -/
instance : LE Registry :=
  ⟨fun R R' => ∀ name info, R.constructor? name = some info → R'.constructor? name = some info⟩

theorem le_refl (R : Registry) : R ≤ R :=
  fun _ _ h => h

theorem le_trans {R R' R'' : Registry} (h : R ≤ R') (h' : R' ≤ R'') : R ≤ R'' :=
  fun name info hinfo => h' name info (h name info hinfo)

theorem name_of_constructor? {R : Registry} {name : String} {info : ConstructorInfo}
    (h : R.constructor? name = some info) : info.name = name :=
  R.name_eq name info h

theorem mem_constructors {R : Registry} {name : String} {info : ConstructorInfo}
    (h : R.constructor? name = some info) : info ∈ R.constructors :=
  List.mem_map.mpr ⟨(name, info), Table.get?_eq_some_iff.mp h, rfl⟩

/-! ### Listing -/

/-- The first of `names` that is a declared constructor, or is listed in `earlier` or before it. -/
def firstClash (R : Registry) (earlier : List String) : (names : List String) → Option String
  | [] => none
  | name :: names =>
    if (R.constructor? name).isSome ∨ name ∈ earlier then some name
    else R.firstClash (name :: earlier) names

/-- No name clashes if there is no first clash. -/
theorem firstClash_eq_none {R : Registry} {earlier names : List String}
    (h : R.firstClash earlier names = none) :
    (∀ name ∈ names, R.constructor? name = none ∧ name ∉ earlier) ∧ names.Nodup := by
  induction names generalizing earlier with
  | nil => simp
  | cons name names ih =>
    rw [firstClash] at h
    split at h
    · cases h
    · next hfree =>
      rw [not_or, Bool.not_eq_true, Option.isSome_eq_false_iff, Option.isNone_iff_eq_none] at hfree
      obtain ⟨hnames, hnodup⟩ := ih h
      refine ⟨fun other hother => ?_, List.nodup_cons.mpr ⟨fun hmem => ?_, hnodup⟩⟩
      · rcases List.mem_cons.mp hother with rfl | hother
        · exact hfree
        · exact ⟨(hnames other hother).1, fun hmem =>
            (hnames other hother).2 (List.mem_cons_of_mem _ hmem)⟩
      · exact (hnames name hmem).2 List.mem_cons_self

/-- Listing goes through the constructors up to the first name in the way, and writes nothing. -/
theorem outcome_foldlM_enlist {R : Registry} (name : String) {listed : List ConstructorInfo}
    {earlier : List String} (hearlier : ∀ c, c ∈ listed.map ConstructorInfo.name ↔ c ∈ earlier)
    (constructors : List (String × List Ty)) :
    outcome (constructors.foldlM (enlist name) listed) R =
      (match R.firstClash earlier (constructors.map Prod.fst) with
        | some clash => .error { cause := .redefinition clash }
        | none => .ok (listed ++ constructors.map fun c => ⟨c.1, name, c.2⟩), R) := by
  induction constructors generalizing listed earlier with
  | nil => simp [firstClash]
  | cons c constructors ih =>
    have hlisted : listed.any (·.name = c.1) = true ↔ c.1 ∈ earlier := by
      simp [← hearlier]
    rw [List.foldlM_cons, List.map_cons, firstClash]
    by_cases hclash : (R.constructor? c.1).isSome = true ∨ c.1 ∈ earlier
    · have hstep : outcome (enlist name listed c) R =
          (.error { cause := .redefinition c.1 }, R) := by
        rw [enlist, outcome_bind_of_ok (outcome_get R), if_pos, outcome_throw]
        rwa [Bool.or_eq_true, hlisted]
      rw [outcome_bind_of_error hstep, if_pos hclash]
    · have hstep : outcome (enlist name listed c) R =
          (.ok (listed ++ [⟨c.1, name, c.2⟩]), R) := by
        rw [enlist, outcome_bind_of_ok (outcome_get R), if_neg, outcome_pure]
        rwa [Bool.or_eq_true, hlisted]
      have hlater (other : String) :
          other ∈ (listed ++ [ConstructorInfo.mk c.1 name c.2]).map ConstructorInfo.name ↔
            other ∈ c.1 :: earlier := by
        simp [← hearlier, or_comm]
      rw [outcome_bind_of_ok hstep, if_neg hclash, ih hlater]
      simp

/-! ### Filing -/

/-- The registry with the data type `name` and its constructors `infos` filed. -/
def extended (R : Registry) (name : String) (infos : List ConstructorInfo) : Registry :=
  infos.foldl fileConstructor (R.fileType name infos)

theorem outcome_forM_fileConstructor (R : Registry) (infos : List ConstructorInfo) :
    outcome (infos.forM fun info => modify (·.fileConstructor info) : Declaring Unit) R =
      (.ok (), infos.foldl fileConstructor R) := by
  induction infos generalizing R with
  | nil => rfl
  | cons info infos ih =>
    rw [List.forM, outcome_bind_of_ok (outcome_modify _ R), ih, List.foldl_cons]

theorem types_foldl_fileConstructor (R : Registry) (infos : List ConstructorInfo) :
    (infos.foldl fileConstructor R).types = R.types := by
  induction infos generalizing R with
  | nil => rfl
  | cons info infos ih => exact ih _

/-- Constructors with new names go to the end of the table, in order. -/
theorem entries_foldl_fileConstructor {R : Registry} {infos : List ConstructorInfo}
    (hnew : ∀ info ∈ infos, R.constructor? info.name = none)
    (hnodup : (infos.map ConstructorInfo.name).Nodup) :
    (infos.foldl fileConstructor R).index.entries =
      R.index.entries ++ infos.map fun info => (info.name, info) := by
  induction infos generalizing R with
  | nil => simp
  | cons info infos ih =>
    obtain ⟨hinfo, hinfos⟩ := List.forall_mem_cons.mp hnew
    obtain ⟨hnotMem, hnodup⟩ := List.nodup_cons.mp hnodup
    have hfiled : (R.fileConstructor info).index.entries = R.index.entries ++ [(info.name, info)] :=
      Table.entries_insert_of_get?_eq_none hinfo info
    rw [List.foldl_cons, ih (fun other hother => ?_) hnodup, hfiled]
    · simp
    · have hne : other.name ≠ info.name := fun h => hnotMem (h ▸ List.mem_map_of_mem hother)
      exact (Table.get?_insert_of_ne hne R.index info).trans (hinfos other hother)

/-! ### Declaring -/

/-- `declare` ends with the data type if that is declared, or else with the first constructor in the
way, and then it leaves the registry as it was; or it files the data type with its constructors. -/
theorem outcome_declare (R : Registry) (name : String) (constructors : List (String × List Ty)) :
    outcome (declare name constructors) R =
      if (R.data? name).isSome then (.error { cause := .redefinition name }, R)
      else
        match R.firstClash [] (constructors.map Prod.fst) with
        | some clash => (.error { cause := .redefinition clash }, R)
        | none => (.ok (), R.extended name (constructors.map fun c => ⟨c.1, name, c.2⟩)) := by
  have hlist : outcome (constructors.foldlM (enlist name) []) R =
      (match R.firstClash [] (constructors.map Prod.fst) with
        | some clash => .error { cause := .redefinition clash }
        | none => .ok (constructors.map fun c => ⟨c.1, name, c.2⟩), R) :=
    outcome_foldlM_enlist name (fun _ => Iff.rfl) constructors
  rw [declare, outcome_bind_of_ok (outcome_get R)]
  split
  · rw [outcome_throw]
  · cases hclash : R.firstClash [] (constructors.map Prod.fst) with
    | some clash =>
      rw [hclash] at hlist
      rw [outcome_bind_of_error hlist]
    | none =>
      rw [hclash] at hlist
      rw [outcome_bind_of_ok hlist, outcome_bind_of_ok (outcome_modify _ R),
        outcome_forM_fileConstructor]
      rfl

variable {R R' : Registry} {name : String} {constructors : List (String × List Ty)}

/-- A declaration that fails names what is in the way, and leaves the registry as it was. -/
theorem declare_eq_error {e : LangError}
    (h : outcome (declare name constructors) R = (.error e, R')) :
    (∃ clash, e = { cause := .redefinition clash }) ∧ R' = R := by
  rw [outcome_declare] at h
  split at h
  · cases h
    exact ⟨⟨name, rfl⟩, rfl⟩
  · split at h
    · next clash _ =>
      cases h
      exact ⟨⟨clash, rfl⟩, rfl⟩
    · cases h

/-- What a declaration that succeeds has made of the registry: the data type and its constructors
were new, and both tables have them at the end. -/
theorem declare_eq_ok (h : outcome (declare name constructors) R = (.ok (), R')) :
    R.data? name = none ∧ (∀ c ∈ constructors.map Prod.fst, R.constructor? c = none) ∧
      (constructors.map Prod.fst).Nodup ∧
      R'.types = R.types.insert name (constructors.map fun c => ⟨c.1, name, c.2⟩) ∧
      R'.index.entries =
        R.index.entries ++ constructors.map fun c => (c.1, ⟨c.1, name, c.2⟩) := by
  rw [outcome_declare] at h
  split at h
  · cases h
  · next hnew =>
    split at h
    · cases h
    · next hclash =>
      obtain ⟨hfree, hnodup⟩ := firstClash_eq_none hclash
      cases h
      refine ⟨by simpa using hnew, fun c hc => (hfree c hc).1, hnodup, ?_, ?_⟩
      · rw [extended, types_foldl_fileConstructor]
        rfl
      · rw [extended, entries_foldl_fileConstructor]
        · simp [fileType]
        · intro info hinfo
          obtain ⟨c, hc, rfl⟩ := List.mem_map.mp hinfo
          exact (hfree c.1 (List.mem_map_of_mem hc)).1
        · rwa [List.map_map]

/-- The data types after a declaration are the ones before and the declared one. -/
theorem data?_of_declare (h : outcome (declare name constructors) R = (.ok (), R'))
    (other : String) :
    R'.data? other = if other = name then some (constructors.map fun c => ⟨c.1, name, c.2⟩)
      else R.data? other := by
  obtain ⟨-, -, -, htypes, -⟩ := declare_eq_ok h
  rw [data?, htypes, Table.get?_insert]
  rfl

/-- The constructors after a declaration are the ones before, followed by the declared ones. -/
theorem constructors_of_declare (h : outcome (declare name constructors) R = (.ok (), R')) :
    R'.constructors = R.constructors ++ constructors.map fun c => ⟨c.1, name, c.2⟩ := by
  obtain ⟨-, -, -, -, hindex⟩ := declare_eq_ok h
  rw [Registry.constructors, Registry.constructors, hindex, List.map_append, List.map_map]
  rfl

/-- What `constructor?` finds after a declaration it found before, or it is one of the declared
ones. -/
theorem constructor?_of_declare (h : outcome (declare name constructors) R = (.ok (), R'))
    {c : String} {info : ConstructorInfo} :
    R'.constructor? c = some info ↔
      R.constructor? c = some info ∨ ∃ fields, (c, fields) ∈ constructors ∧
        info = ⟨c, name, fields⟩ := by
  obtain ⟨-, -, -, -, hindex⟩ := declare_eq_ok h
  rw [constructor?, constructor?, Table.get?_eq_some_iff, Table.get?_eq_some_iff, hindex,
    List.mem_append, List.mem_map]
  refine or_congr_right ⟨?_, ?_⟩
  · rintro ⟨⟨c, fields⟩, hc, hentry⟩
    cases hentry
    exact ⟨fields, hc, rfl⟩
  · rintro ⟨fields, hc, rfl⟩
    exact ⟨(c, fields), hc, rfl⟩

theorem constructor?_of_declare_of_mem
    (h : outcome (declare name constructors) R = (.ok (), R')) {c : String} {fields : List Ty}
    (hc : (c, fields) ∈ constructors) : R'.constructor? c = some ⟨c, name, fields⟩ :=
  (constructor?_of_declare h).mpr (.inr ⟨fields, hc, rfl⟩)

/-- What has not been declared is a constructor if it was one before. -/
theorem constructor?_of_declare_of_notMem
    (h : outcome (declare name constructors) R = (.ok (), R')) {c : String}
    (hc : c ∉ constructors.map Prod.fst) : R'.constructor? c = R.constructor? c := by
  refine Option.ext fun info => (constructor?_of_declare h).trans (or_iff_left ?_)
  rintro ⟨fields, hmem, -⟩
  exact hc (List.mem_map_of_mem hmem)

/-- `declare` only adds constructors. -/
theorem le_of_declare (h : outcome (declare name constructors) R = (.ok (), R')) : R ≤ R' :=
  fun _ _ hinfo => (constructor?_of_declare h).mpr (.inl hinfo)

end Casewise.Registry

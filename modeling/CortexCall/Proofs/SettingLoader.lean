import CortexCall.Proofs.SettingSources

/-!
# What a loader finds

The settings come from a loader, and the program relies on what is documented of it.
Names are matched without regard to letter case. A source has a setting under the first
of its names that it knows, and gives it under the preferred name, except that a variable
which is called like the field keeps that name. Sources are merged name by name, the
earlier one winning, and a setting takes the first of its names that is there.
`Loader.Documented` says this, step by step.

None of it is about the sources together. What a setting comes to in the end is a
consequence, and not the obvious one: where the environment has only the name of the
field and the file a documented name, merging by name keeps both, and the file counts.
So the setting has what the first of its **places** has,
`Loader.Documented.find_eq_lookThrough`, in which the field names come last.

That the loader that runs is as documented is `Loader.documented_standard`.
-/

namespace CortexCall

namespace Loader

/-- **What is documented of a loader**, one step at a time. -/
structure Documented (L : Loader) : Prop where
  /-- Keywords come under the preferred name of their setting: the first of its names that is a
  keyword counts, up to letter case. -/
  ofKeywords_preferredName : ∀ (keywords : Members) (s : Setting),
    (L.ofKeywords keywords).get? s.preferredName = s.names.findSome? (Setting.keywordValue keywords)
  /-- They come under no other of its names. -/
  ofKeywords_other : ∀ (keywords : Members) (s : Setting), ∀ n ∈ s.names, n ≠ s.preferredName →
    (L.ofKeywords keywords).get? n = none
  /-- The first documented name that is a variable comes under the preferred name too. -/
  ofVariables_preferredName : ∀ (b : List Dotenv.Binding) (s : Setting),
    (L.ofVariables b).get? s.preferredName
      = (s.documentedNames.findSome? (Source.ofBindings b)).map Json.str
  /-- A variable that is called like the field comes under that name, if there is no documented
  one. -/
  ofVariables_fieldName : ∀ (b : List Dotenv.Binding) (s : Setting),
    (L.ofVariables b).get? s.fieldName
      = if (s.documentedNames.findSome? (Source.ofBindings b)).isSome then none
        else (Source.ofBindings b s.fieldName).map Json.str
  /-- Variables come under no other name of a setting. -/
  ofVariables_other : ∀ (b : List Dotenv.Binding) (s : Setting), ∀ n ∈ s.names,
    n ≠ s.preferredName → n ≠ s.fieldName → (L.ofVariables b).get? n = none
  /-- Members are merged by name, and the earlier ones win. -/
  get?_merge : ∀ (m m' : Members) (n : Text), (L.merge m m').get? n = (m.get? n).or (m'.get? n)
  /-- A setting takes what stands under the first of its names. -/
  take_eq : ∀ (s : Setting) (m : Members), L.take s m = s.names.findSome? fun n => m.get? n

end Loader

/-! ## The names of a setting -/

namespace Setting

variable {α : Type} {s t : Setting} {n : Text} {source : Text → Option α}

theorem documentedNames_eq (s : Setting) :
    ∃ others, s.documentedNames = s.preferredName :: others := by
  cases s <;> exact ⟨_, rfl⟩

theorem preferredName_mem (s : Setting) : s.preferredName ∈ s.names := by
  cases s <;> exact List.mem_cons_self

theorem fieldName_mem (s : Setting) : s.fieldName ∈ s.names :=
  List.mem_append_right _ (List.mem_singleton_self _)

theorem fieldName_notMem (s : Setting) : s.fieldName ∉ s.documentedNames := by
  cases s <;> decide

theorem preferredName_ne_fieldName (s : Setting) : s.preferredName ≠ s.fieldName := by
  cases s <;> decide

/-- **A source with nothing under the other names** is looked up under the preferred name and
the name of the field. -/
theorem findSome?_names
    (h : ∀ n ∈ s.names, n ≠ s.preferredName → n ≠ s.fieldName → source n = none) :
    s.names.findSome? source = (source s.preferredName).or (source s.fieldName) := by
  obtain ⟨others, documented⟩ := s.documentedNames_eq
  unfold names
  rw [List.findSome?_append, documented, List.findSome?_cons, List.findSome?_singleton]
  cases preferred : source s.preferredName with
  | some v => rfl
  | none =>
    have rest : others.findSome? source = none := List.findSome?_eq_none_iff.mpr fun n hn => by
      have mem : n ∈ s.documentedNames := documented ▸ List.mem_cons_of_mem _ hn
      by_cases hp : n = s.preferredName
      · rw [hp, preferred]
      · exact h n (List.mem_append_left _ mem) hp fun hf => s.fieldName_notMem (hf ▸ mem)
    rw [rest]

/-- **Members of which each belongs to a setting** have under a name of a setting what belongs
to that one. -/
theorem get?_filterMap_all {member : Setting → Option (Text × Json)}
    (own : ∀ t p, member t = some p → p.1 ∈ t.names) (h : n ∈ s.names) :
    Members.get? n (all.filterMap member)
      = (member s).bind fun p => if p.1 = n then some p.2 else none := by
  have list : ∀ settings : List Setting, Members.get? n (settings.filterMap member)
      = if s ∈ settings then (member s).bind fun p => if p.1 = n then some p.2 else none
        else none := by
    intro settings
    induction settings with
    | nil => rfl
    | cons t rest ih =>
      cases ht : member t with
      | none =>
        rw [List.filterMap_cons_none ht, ih]
        by_cases hs : s = t
        · rw [hs, ht, Option.bind_none, ite_self, ite_self]
        · simp only [List.mem_cons, hs, false_or]
      | some p =>
        rw [List.filterMap_cons_some ht, Members.get?_cons, ih]
        by_cases hs : s = t
        · subst hs
          rw [if_pos List.mem_cons_self, ht, Option.bind_some]
          split
          · rfl
          · exact ite_self _
        · have other : p.1 ≠ n := fun e =>
            names_apart hs n h p.1 (own t p ht) (congrArg Text.lower e)
          simp only [if_neg other, List.mem_cons, hs, false_or]
  rw [list, if_pos s.mem_all]

end Setting

/-! ## The loader that runs -/

namespace Loader

theorem keywordMember_own (keywords : Members) (t : Setting) (p : Text × Json)
    (h : t.keywordMember keywords = some p) : p.1 ∈ t.names := by
  obtain ⟨v, -, rfl⟩ := Option.map_eq_some_iff.mp h
  exact t.preferredName_mem

theorem variableMember_own (b : List Dotenv.Binding) (t : Setting) (p : Text × Json)
    (h : t.variableMember b = some p) : p.1 ∈ t.names := by
  unfold Setting.variableMember at h
  split at h
  · obtain rfl := Option.some.inj h
    exact t.preferredName_mem
  · obtain ⟨v, -, rfl⟩ := Option.map_eq_some_iff.mp h
    exact t.fieldName_mem

variable {s : Setting} {n : Text}

theorem get?_ofKeywords_standard (keywords : Members) (h : n ∈ s.names) :
    (standard.ofKeywords keywords).get? n
      = if s.preferredName = n then s.names.findSome? (Setting.keywordValue keywords)
        else none := by
  refine (Setting.get?_filterMap_all (keywordMember_own keywords) h).trans ?_
  unfold Setting.keywordMember
  cases s.names.findSome? (Setting.keywordValue keywords) with
  | none => exact (ite_self _).symm
  | some v => rfl

theorem get?_ofVariables_standard (b : List Dotenv.Binding) (h : n ∈ s.names) :
    (standard.ofVariables b).get? n
      = match s.documentedNames.findSome? (Source.ofBindings b) with
        | some t => if s.preferredName = n then some (.str t) else none
        | none => if s.fieldName = n then (Source.ofBindings b s.fieldName).map .str else none := by
  refine (Setting.get?_filterMap_all (variableMember_own _) h).trans ?_
  unfold Setting.variableMember
  rw [valueOf_foldNames]
  cases s.documentedNames.findSome? (Source.ofBindings b) with
  | some t => rfl
  | none =>
    cases Source.ofBindings b s.fieldName with
    | none => exact (ite_self _).symm
    | some t => rfl

/-- **The loader that runs is as documented.** -/
theorem documented_standard : standard.Documented where
  ofKeywords_preferredName keywords s :=
    (get?_ofKeywords_standard keywords s.preferredName_mem).trans (if_pos rfl)
  ofKeywords_other keywords s n hn hne :=
    (get?_ofKeywords_standard keywords hn).trans (if_neg (Ne.symm hne))
  ofVariables_preferredName b s := by
    rw [get?_ofVariables_standard b s.preferredName_mem]
    cases s.documentedNames.findSome? (Source.ofBindings b) with
    | some t => exact if_pos rfl
    | none => exact if_neg (Ne.symm s.preferredName_ne_fieldName)
  ofVariables_fieldName b s := by
    rw [get?_ofVariables_standard b s.fieldName_mem]
    cases s.documentedNames.findSome? (Source.ofBindings b) with
    | some t => exact if_neg s.preferredName_ne_fieldName
    | none => exact if_pos rfl
  ofVariables_other b s n hn hp hf := by
    rw [get?_ofVariables_standard b hn]
    cases s.documentedNames.findSome? (Source.ofBindings b) with
    | some t => exact if_neg (Ne.symm hp)
    | none => exact if_neg (Ne.symm hf)
  get?_merge m m' n := by
    refine (Members.get?_append ..).trans ?_
    rw [Members.get?_filter m' (fun n => (m.get? n).isNone) n]
    cases m.get? n <;> rfl
  take_eq _ _ := rfl

end Loader

/-! ## What is found -/

namespace Settings

/-- Keywords that hold texts, as keywords. -/
def textKeywords (keywords : Variables) : Members := keywords.map fun p => (p.1, .str p.2)

end Settings

namespace Loader

variable {L : Loader} {s : Setting}

theorem keywordValue_textKeywords (keywords : Variables) (name : Text) :
    Setting.keywordValue (Settings.textKeywords keywords) name
      = (Source.ofKeywords keywords name).map Json.str := by
  unfold Setting.keywordValue Settings.textKeywords Source.ofKeywords
  rw [List.find?_map, Option.map_map, Option.map_map]
  rfl

theorem map_snd_find (keywords : Members) (environment file : List Dotenv.Binding) :
    (L.find keywords environment file s).map Prod.snd
      = L.take s (L.gather keywords environment file) := by
  unfold find
  cases L.take s (L.gather keywords environment file) <;> rfl

namespace Documented

/-- What has been gathered under a name, source by source. -/
theorem get?_gather (documented : L.Documented) (keywords : Members)
    (environment file : List Dotenv.Binding) (n : Text) :
    (L.gather keywords environment file).get? n = ((L.ofKeywords keywords).get? n).or
      (((L.ofVariables environment).get? n).or ((L.ofVariables file).get? n)) := by
  unfold gather
  rw [documented.get?_merge, documented.get?_merge]

/-- **What a setting takes** stands under its preferred name or the name of its field. -/
theorem take_gather (documented : L.Documented) (keywords : Members)
    (environment file : List Dotenv.Binding) (s : Setting) :
    L.take s (L.gather keywords environment file)
      = ((L.gather keywords environment file).get? s.preferredName).or
        ((L.gather keywords environment file).get? s.fieldName) := by
  rw [documented.take_eq]
  refine Setting.findSome?_names fun n hn hp hf => ?_
  rw [documented.get?_gather, documented.ofKeywords_other _ s n hn hp,
    documented.ofVariables_other _ s n hn hp hf, documented.ofVariables_other _ s n hn hp hf]
  rfl

/-- **What is found of a setting is what the first of its places has.** -/
theorem find_eq_lookThrough (documented : L.Documented) (keywords env : Variables)
    (file : Option Text) (s : Setting) :
    (L.find (Settings.textKeywords keywords) (environmentBindings env) (fileBindings env file)
        s).map Prod.snd
      = (Setting.lookThrough (s.places (.ofKeywords keywords) (.ofEnvironment env)
        (.ofFile env file))).map Json.str := by
  have keyword : s.names.findSome? (Setting.keywordValue (Settings.textKeywords keywords))
      = (s.names.findSome? (Source.ofKeywords keywords)).map Json.str := by
    rw [List.map_findSome?]
    exact Setting.findSome?_congr fun n _ => keywordValue_textKeywords keywords n
  have field : (L.ofKeywords (Settings.textKeywords keywords)).get? s.fieldName = none :=
    documented.ofKeywords_other _ s _ s.fieldName_mem (Ne.symm s.preferredName_ne_fieldName)
  rw [map_snd_find, documented.take_gather, documented.get?_gather,
    documented.get?_gather, documented.ofKeywords_preferredName, field,
    documented.ofVariables_preferredName, documented.ofVariables_preferredName,
    documented.ofVariables_fieldName, documented.ofVariables_fieldName, keyword,
    ofBindings_environmentBindings, ofBindings_fileBindings, Setting.lookThrough_places]
  -- a source that has a documented name has nothing under the field name, and does not need it
  cases s.names.findSome? (Source.ofKeywords keywords) with
  | some t => rfl
  | none =>
    cases s.documentedNames.findSome? (Source.ofEnvironment env) with
    | some t => rfl
    | none =>
      cases s.documentedNames.findSome? (Source.ofFile env file) with
      | some t => rfl
      | none => cases Source.ofEnvironment env s.fieldName <;> rfl

end Documented

end Loader

namespace Settings

/-- **The settings that a loader gathers from keywords, an environment and a file.** -/
def ofSources (L : Loader) (keywords env : Variables) (file : Option Text) :
    Except SettingError Settings := L.settings (textKeywords keywords) env file

variable {L : Loader}

/-- **The settings of three sources**: each is what the first of its places has. -/
theorem ofSources_eq_ok (documented : L.Documented) (keywords env : Variables)
    (file : Option Text) :
    ∃ c, ofSources L keywords env file = .ok c ∧ ∀ s, c.value s = s.settled
      (Setting.lookThrough (s.places (.ofKeywords keywords) (.ofEnvironment env)
        (.ofFile env file))) :=
  ofFound_eq_ok fun s => documented.find_eq_lookThrough keywords env file s

/-- Without keywords these are the settings that are loaded. -/
theorem ofSources_nil (env : Variables) (file : Option Text) :
    ofSources .standard [] env file = .ok (load env file) := by
  obtain ⟨c, hc, -⟩ := ofSources_eq_ok Loader.documented_standard [] env file
  have loaded : load env file = (ofSources .standard [] env file).toOption.getD default := rfl
  rw [loaded, hc]
  rfl

end Settings

end CortexCall

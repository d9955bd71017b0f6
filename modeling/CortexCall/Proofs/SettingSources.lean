import Mathlib.Data.List.Basic
import Mathlib.Data.List.Induction
import CortexCall.Settings.Loader

/-!
# What the sources say of a setting

Keywords, an environment and a file are three **sources**. Each comes as a list in its
own way – the first keyword of a name counts, and the last variable – and a file refers
to the environment. But all that a setting asks of a source is what it has under a name,
up to letter case, so a source is a function of the name here: `Source.ofKeywords`,
`Source.ofEnvironment` and `Source.ofFile`, each read off the list as it stands.

A setting is looked for in a list of **places**, a source and a name in it:
`Setting.places`. The list is in the order of the sources for the names that are
documented, and the name of the field comes last. That a loader gives each setting what
the first of its places has is shown elsewhere; here are the lists as sources, and the
settings that a look-up finds.
-/

namespace CortexCall

/-- What a source has under a name. -/
abbrev Source := Text → Option Text

namespace Source

/-- **Bindings**: of those whose names differ in letter case only, the last counts, also if it
sets nothing. -/
def ofBindings (b : List Dotenv.Binding) : Source := fun name =>
  (b.filter fun p => Text.lower p.1 == Text.lower name).getLast?.bind Prod.snd

/-- **Keywords**: of those that differ in letter case only, the first counts. -/
def ofKeywords (keywords : Variables) : Source := fun name =>
  (keywords.find? fun p => Text.lower p.1 == Text.lower name).map Prod.snd

/-- **An environment**: of variables that differ in letter case only, the last counts. -/
def ofEnvironment (env : Variables) : Source := fun name =>
  (env.filter fun p => Text.lower p.1 == Text.lower name).getLast?.map Prod.snd

/-- **A file** in an environment: the last binding of a name counts, also if it sets
nothing. -/
def ofFile (env : Variables) : Option Text → Source
  | none => fun _ => none
  | some t => fun name =>
    ((Dotenv.values env t).filter fun p => Text.lower p.1 == Text.lower name).getLast?.bind Prod.snd

end Source

namespace Setting

/-- **The places in which a setting is looked for**, in order: a source, and a name in
it. -/
def places (k e f : Source) (s : Setting) : List (Source × Text) :=
  s.names.map (k, ·) ++ (s.documentedNames.map (e, ·) ++ (s.documentedNames.map (f, ·)
    ++ [(e, s.fieldName), (f, s.fieldName)]))

/-- What the first of some places has that has anything. -/
def lookThrough (places : List (Source × Text)) : Option Text := places.findSome? fun p => p.1 p.2

/-- **What a setting comes to** where a text is found for it, or none: a function is
always called, and a level is the one that the text asks for. -/
def settled : Setting → Option Text → Option Text
  | .aiFunction, found => some (found.getD Settings.defaultFunction)
  | .logLevel, found => some (LogLevel.ofText found).name
  | _, found => found

end Setting

namespace Settings

/-- **The value of a setting**; that of the level is its name. -/
def value (c : Settings) : Setting → Option Text
  | .aiFunction => some c.function
  | .aiArgs => c.args
  | .account => c.connection.account
  | .user => c.connection.username
  | .password => c.connection.password
  | .privateKeyPath => c.connection.privateKeyPath
  | .role => c.connection.role
  | .warehouse => c.connection.warehouse
  | .database => c.connection.database
  | .schema => c.connection.schema
  | .logLevel => some c.connection.logLevel.name

end Settings

/-! ## Lists as sources -/

section Lists

variable {name other : Text} {value : Option Text} {b : List Dotenv.Binding} {p : Dotenv.Binding}

theorem lookup_bind (b : List Dotenv.Binding) (name other : Text) (value : Option Text) :
    (Dotenv.bind b name value).lookup other
      = if name = other then some value else b.lookup other := by
  induction b with
  | nil =>
    rw [Dotenv.bind, List.lookup_cons]
    by_cases h : name = other
    · rw [if_pos h, h, beq_self_eq_true]
    · rw [if_neg h, beq_eq_false_iff_ne.mpr (Ne.symm h)]
  | cons p rest ih =>
    obtain ⟨n, v⟩ := p
    rw [Dotenv.bind]
    by_cases hn : n = name
    · subst hn
      rw [if_pos rfl, List.lookup_cons, List.lookup_cons]
      by_cases h : n = other
      · rw [if_pos h, h, beq_self_eq_true]
      · rw [if_neg h, beq_eq_false_iff_ne.mpr (Ne.symm h)]
    · rw [if_neg hn, List.lookup_cons, List.lookup_cons, ih]
      by_cases h : name = other
      · subst h
        rw [if_pos rfl, if_pos rfl, beq_eq_false_iff_ne.mpr (Ne.symm hn)]
      · rw [if_neg h, if_neg h]

/-- **The last binding of a name counts**, up to letter case. -/
theorem valueOf_foldNames (b : List Dotenv.Binding) :
    valueOf (foldNames b) = Source.ofBindings b := by
  funext name
  unfold Source.ofBindings
  induction b using List.reverseRecOn with
  | nil => rfl
  | append_singleton before p ih =>
    unfold valueOf foldNames at ih ⊢
    rw [List.foldl_append, List.foldl_cons, List.foldl_nil, lookup_bind, List.filter_append]
    by_cases h : Text.lower p.1 = Text.lower name
    · have kept : [p].filter (fun p => Text.lower p.1 == Text.lower name) = [p] :=
        List.filter_eq_self.mpr (List.forall_mem_singleton.mpr (beq_iff_eq.mpr h))
      rw [if_pos h, kept, List.getLast?_append]
      rfl
    · have dropped : [p].filter (fun p => Text.lower p.1 == Text.lower name) = [] :=
        List.filter_eq_nil_iff.mpr (List.forall_mem_singleton.mpr (by rwa [beq_iff_eq]))
      rw [if_neg h, dropped, List.append_nil]
      exact ih

theorem ofBindings_environmentBindings (env : Variables) :
    Source.ofBindings (environmentBindings env) = Source.ofEnvironment env := by
  funext name
  unfold Source.ofBindings environmentBindings Source.ofEnvironment
  rw [List.filter_map, List.getLast?_map, Option.bind_map]
  exact (Option.map_eq_bind ..).symm

theorem ofBindings_fileBindings (env : Variables) (file : Option Text) :
    Source.ofBindings (fileBindings env file) = Source.ofFile env file := by
  cases file <;> rfl

end Lists

/-! ## References in a file -/

namespace Dotenv

variable {env env' : Variables} {t : Text}

theorem resolve_congr {lookup lookup' : Text → Option Text}
    (h : ∀ n ∈ (pieces t).filterMap Piece.name?, lookup n = lookup' n) :
    resolve lookup t = resolve lookup' t := by
  refine List.flatMap_congr fun p hp => ?_
  cases p with
  | char c => rfl
  | reference name instead =>
    have same := h name (List.mem_filterMap.mpr ⟨_, hp, rfl⟩)
    exact congrArg (fun found : Option Text => found.getD instead) same

/-- A reference sees the environment only where no earlier binding has its name. -/
theorem resolveAll_congr {bs : List Binding} (earlier : List Binding)
    (h : ∀ n ∈ bs.flatMap fun b => (pieces (b.2.getD [])).filterMap Piece.name?,
      env.lookup n = env'.lookup n) :
    resolveAll env earlier bs = resolveAll env' earlier bs := by
  induction bs generalizing earlier with
  | nil => rfl
  | cons b rest ih =>
    obtain ⟨name, value⟩ := b
    rw [List.flatMap_cons] at h
    obtain ⟨own, later⟩ := List.forall_mem_append.mp h
    have lookup : ∀ n, env.lookup n = env'.lookup n →
        lookupIn env earlier n = lookupIn env' earlier n := fun n hn => by
      unfold lookupIn
      rw [hn]
    have same : value.map (resolve (lookupIn env earlier))
        = value.map (resolve (lookupIn env' earlier)) := by
      cases value with
      | none => rfl
      | some t => exact congrArg some (resolve_congr fun n hn => lookup n (own n hn))
    unfold resolveAll
    dsimp only
    rw [same, ih _ later]

/-- **A file is read the same in environments that agree on the names it refers to.** -/
theorem values_congr (h : ∀ n ∈ referredNames t, env.lookup n = env'.lookup n) :
    values env t = values env' t := resolveAll_congr [] h

end Dotenv

/-! ## Look-ups -/

namespace Setting

variable {k e f : Source} {s : Setting}

theorem lookThrough_append (ps qs : List (Source × Text)) :
    lookThrough (ps ++ qs) = (lookThrough ps).or (lookThrough qs) := List.findSome?_append

theorem lookThrough_map (source : Source) (names : List Text) :
    lookThrough (names.map (source, ·)) = names.findSome? source := List.findSome?_map

theorem lookThrough_pair (source source' : Source) (name name' : Text) :
    lookThrough [(source, name), (source', name')] = (source name).or (source' name') := by
  unfold lookThrough
  simp only [List.findSome?_cons, List.findSome?_nil]
  cases source name <;> cases source' name' <;> rfl

/-- **What is found in the places of a setting**, source by source. -/
theorem lookThrough_places : lookThrough (s.places k e f)
    = (s.names.findSome? k).or ((s.documentedNames.findSome? e).or
      ((s.documentedNames.findSome? f).or ((e s.fieldName).or (f s.fieldName)))) := by
  unfold places
  rw [lookThrough_append, lookThrough_map, lookThrough_append, lookThrough_map, lookThrough_append,
    lookThrough_map, lookThrough_pair]

/-- Sources that agree on some names agree on what they have under the first of them. -/
theorem findSome?_congr {α : Type} {names : List Text} {source source' : Text → Option α}
    (h : ∀ n ∈ names, source n = source' n) : names.findSome? source = names.findSome? source' := by
  rw [← List.head?_filterMap, ← List.head?_filterMap, List.filterMap_congr h]

/-- No setting is missing in the list. -/
theorem mem_all (s : Setting) : s ∈ all := by cases s <;> decide

/-- **No name is that of two settings**, up to letter case. -/
theorem names_apart {s t : Setting} (h : s ≠ t) :
    ∀ n ∈ s.names, ∀ n' ∈ t.names, Text.lower n' ≠ Text.lower n := by
  have table : ∀ s ∈ all, ∀ t ∈ all, s ≠ t →
      ∀ n ∈ s.names, ∀ n' ∈ t.names, Text.lower n' ≠ Text.lower n := by
    decide +kernel
  exact table s s.mem_all t t.mem_all h

end Setting

theorem LogLevel.eq_of_name {l l' : LogLevel} (h : l.name = l'.name) : l = l' := by
  revert h
  cases l <;> cases l' <;> decide

namespace Settings

variable {found : Setting → Option (Text × Json)} {texts : Setting → Option Text} {c c' : Settings}

/-- **Settings with the same values are the same settings.** -/
theorem ext_value (h : ∀ s, c.value s = c'.value s) : c = c' := by
  obtain ⟨function, args, account, username, password, path, role, warehouse, database, schema,
    level⟩ := c
  obtain ⟨function', args', account', username', password', path', role', warehouse', database',
    schema', level'⟩ := c'
  obtain rfl : function = function' := Option.some.inj (h .aiFunction)
  obtain rfl : args = args' := h .aiArgs
  obtain rfl : account = account' := h .account
  obtain rfl : username = username' := h .user
  obtain rfl : password = password' := h .password
  obtain rfl : path = path' := h .privateKeyPath
  obtain rfl : role = role' := h .role
  obtain rfl : warehouse = warehouse' := h .warehouse
  obtain rfl : database = database' := h .database
  obtain rfl : schema = schema' := h .schema
  obtain rfl : level = level' := LogLevel.eq_of_name (Option.some.inj (h .logLevel))
  rfl

/-- **Look-ups that find texts only cannot be refused**, and every setting is what its text
comes to. -/
theorem ofFound_eq_ok (h : ∀ s, (found s).map Prod.snd = (texts s).map Json.str) :
    ∃ c, ofFound found = .ok c ∧ ∀ s, c.value s = s.settled (texts s) := by
  have shape : ∀ s, found s = none ∧ texts s = none
      ∨ ∃ name t, found s = some (name, .str t) ∧ texts s = some t := by
    intro s
    cases hfound : found s with
    | none =>
      have none := h s
      rw [hfound] at none
      exact .inl ⟨rfl, Option.map_eq_none_iff.mp none.symm⟩
    | some p =>
      have some := h s
      rw [hfound] at some
      obtain ⟨t, ht, hp⟩ := Option.map_eq_some_iff.mp some.symm
      exact .inr ⟨p.1, t, congrArg Option.some (Prod.ext rfl hp.symm), ht⟩
  have text : ∀ s : Setting, s.textOf (found s) = .ok (texts s) := fun s => by
    obtain ⟨hfound, htext⟩ | ⟨name, t, hfound, htext⟩ := shape s <;> rw [hfound, htext] <;> rfl
  have level : Setting.levelOf (found .logLevel) = .ofText (texts .logLevel) := by
    obtain ⟨hfound, htext⟩ | ⟨name, t, hfound, htext⟩ := shape .logLevel <;>
      rw [hfound, htext] <;> rfl
  refine ⟨_, by simp only [ofFound, text, level]; rfl, fun s => ?_⟩
  cases s <;> rfl

end Settings

end CortexCall

import CortexCall.Proofs.SettingLoader

/-!
# The order of the sources

The sources are looked through in order: keywords, the environment, the file. For the
documented names of a setting this is the whole truth, and a variable in the environment
is never overridden by the file. The name of the field is different. As a keyword it is a
name like the others, but as a variable it comes behind the documented names of *both*
the environment and the file, so that `SNOWFLAKE_USER` in the file counts more than
`USER` in the environment: `not_strictlyOrdered_ambientUser`. This comes of merging the
sources by name, and holds of every loader that is as documented.

Settings are independent of each other, as no name is that of two settings. Only the
values of the file can mix them, where a value refers to a variable; a file is
therefore compared by what it gives, and it gives the same as long as the variables it
refers to are the same. All this is `ofSources_ordered`.
-/

namespace CortexCall

namespace Setting

variable {k e f k' e' f' : Source} {s t : Setting}

/-- Two sets of sources **agree apart from a setting**: they have the same under each name
that is not one of the setting's, up to letter case. -/
def AgreeApartFrom (t : Setting) (k e f k' e' f' : Source) : Prop :=
  ∀ name, (∀ n ∈ t.names, Text.lower n ≠ Text.lower name) →
    k name = k' name ∧ e name = e' name ∧ f name = f' name

/-- **A setting depends on no name of another one.** -/
theorem lookThrough_places_of_agree (agree : AgreeApartFrom t k e f k' e' f') (h : s ≠ t) :
    lookThrough (s.places k e f) = lookThrough (s.places k' e' f') := by
  have own : ∀ n ∈ s.names, k n = k' n ∧ e n = e' n ∧ f n = f' n := fun n hn =>
    agree n (names_apart h n hn)
  have documented : ∀ n ∈ s.documentedNames, e n = e' n ∧ f n = f' n := fun n hn =>
    (own n (List.mem_append_left _ hn)).2
  have field := (own s.fieldName (List.mem_append_right _ (List.mem_singleton_self _))).2
  rw [lookThrough_places, lookThrough_places, findSome?_congr fun n hn => (own n hn).1,
    findSome?_congr fun n hn => (documented n hn).1,
    findSome?_congr fun n hn => (documented n hn).2, field.1, field.2]

/-- **A documented variable in the environment comes before the file.** -/
theorem lookThrough_places_of_environment (h : ∃ n ∈ s.documentedNames, (e n).isSome = true) :
    lookThrough (s.places k e f) = lookThrough (s.places k e f') := by
  have found : (s.documentedNames.findSome? e).isSome = true := by
    rw [List.isSome_findSome?, List.any_eq_true]
    exact h
  obtain ⟨v, hv⟩ := Option.isSome_iff_exists.mp found
  rw [lookThrough_places, lookThrough_places, hv]
  rfl

/-- The places of a setting if each source were looked through to its end before the
next. -/
def strictPlaces (k e f : Source) (s : Setting) : List (Source × Text) :=
  s.names.map (k, ·) ++ (s.names.map (e, ·) ++ s.names.map (f, ·))

end Setting

namespace Settings

open Setting

variable {L : Loader} {keywords env : Variables} {file : Option Text} {c : Settings}

/-- **What the settings are** that a loader gathers from keywords, an environment and a file. -/
structure Ordered (L : Loader) (keywords env : Variables) (file : Option Text) (c : Settings) :
    Prop where
  /-- A setting is what the first of its places has. -/
  value : ∀ s, c.value s = s.settled (lookThrough
    (s.places (.ofKeywords keywords) (.ofEnvironment env) (.ofFile env file)))
  /-- Where the environment has a documented variable, the file does not matter. -/
  environment : ∀ s : Setting,
    (∃ n ∈ s.documentedNames, (Source.ofEnvironment env n).isSome = true) →
    ∀ file' c', ofSources L keywords env file' = .ok c' → c'.value s = c.value s
  /-- What the sources have under the names of one setting does not matter to the others. -/
  independent : ∀ (t : Setting) (keywords' env' : Variables) (file' : Option Text) (c' : Settings),
    t.AgreeApartFrom (.ofKeywords keywords) (.ofEnvironment env) (.ofFile env file)
      (.ofKeywords keywords') (.ofEnvironment env') (.ofFile env' file') →
    ofSources L keywords' env' file' = .ok c' → ∀ s, s ≠ t → c'.value s = c.value s
  /-- What the file has depends on the variables it refers to. -/
  references : ∀ (env' : Variables), (∀ t ∈ file, ∀ n ∈ Dotenv.referredNames t,
    env.lookup n = env'.lookup n) → Source.ofFile env file = Source.ofFile env' file

/-- **Keywords, environment and file are looked through in this order** under the documented
names, and environment and file once more under the name of the field. -/
theorem ofSources_ordered (documented : L.Documented) (keywords env : Variables)
    (file : Option Text) :
    ∃ c, ofSources L keywords env file = .ok c ∧ Ordered L keywords env file c := by
  obtain ⟨c, hc, values⟩ := ofSources_eq_ok documented keywords env file
  refine ⟨c, hc, values, fun s hs file' c' hc' => ?_,
    fun t keywords' env' file' c' agree hc' s h => ?_, fun env' h => ?_⟩
  · obtain ⟨d, hd, values'⟩ := ofSources_eq_ok documented keywords env file'
    obtain rfl := Except.ok.inj (hc'.symm.trans hd)
    rw [values, values', lookThrough_places_of_environment hs]
  · obtain ⟨d, hd, values'⟩ := ofSources_eq_ok documented keywords' env' file'
    obtain rfl := Except.ok.inj (hc'.symm.trans hd)
    rw [values, values', lookThrough_places_of_agree agree h]
  · cases file with
    | none => rfl
    | some t =>
      have same := Dotenv.values_congr (h t rfl)
      unfold Source.ofFile
      dsimp only
      rw [same]

/-- A keyword, an environment with an empty value, and a file. -/
def mixedKeywords : Variables := [("role".toText, "k".toText)]

@[inherit_doc mixedKeywords]
def mixedEnvironment : Variables :=
  [("SNOWFLAKE_ACCOUNT_URL".toText, "e".toText), ("snowflake_warehouse".toText, []),
    ("DATABASE".toText, "d".toText), ("SNOWFLAKE_ROLE".toText, "e".toText)]

@[inherit_doc mixedKeywords]
def mixedFile : Text :=
  ("SNOWFLAKE_ACCOUNT=f\nSNOWFLAKE_WAREHOUSE=f\nSNOWFLAKE_DATABASE=f\n"
    ++ "SNOWFLAKE_LOG_LEVEL=Verbose").toText

/-- The keyword counts for the role; the environment for the account and, empty as it is, for
the warehouse; and the file for the database, in spite of the ambient variable, and for the
level. -/
theorem ofSources_ordered_mixed : Loader.standard.Documented ∧ ∃ c,
    ofSources .standard mixedKeywords mixedEnvironment (some mixedFile) = .ok c
      ∧ Ordered .standard mixedKeywords mixedEnvironment (some mixedFile) c
      ∧ c.value .role = some "k".toText ∧ c.value .account = some "e".toText
      ∧ c.value .warehouse = some [] ∧ c.value .database = some "f".toText
      ∧ c.value .logLevel = some LogLevel.verbose.name := by
  obtain ⟨c, hc, ordered⟩ := ofSources_ordered Loader.documented_standard mixedKeywords
    mixedEnvironment (some mixedFile)
  refine ⟨Loader.documented_standard, c, hc, ordered, ?_⟩
  rw [ordered.value, ordered.value, ordered.value, ordered.value, ordered.value]
  decide +kernel

/-- The order in which each source is looked through under all names of a setting before the next
source is. -/
def StrictlyOrdered (L : Loader) (keywords env : Variables) (file : Option Text) : Prop :=
  ∃ c, ofSources L keywords env file = .ok c ∧ ∀ s, c.value s = s.settled (lookThrough
    (s.strictPlaces (.ofKeywords keywords) (.ofEnvironment env) (.ofFile env file)))

/-- **A documented variable in the file overrides an ambient one in the environment**; and where
a value in the file refers to a variable of another setting, that variable decides it. -/
theorem not_strictlyOrdered_ambientUser :
    ¬ StrictlyOrdered .standard [] [("USER".toText, "a".toText)] (some "SNOWFLAKE_USER=b".toText)
      ∧ (load [("SNOWFLAKE_ROLE".toText, "a".toText)]
            (some "SNOWFLAKE_USER=$\x7bSNOWFLAKE_ROLE\x7d".toText)).value .user
          ≠ (load [("SNOWFLAKE_ROLE".toText, "b".toText)]
            (some "SNOWFLAKE_USER=$\x7bSNOWFLAKE_ROLE\x7d".toText)).value .user := by
  refine ⟨fun ⟨c, hc, strict⟩ => ?_, by decide +kernel⟩
  obtain ⟨d, hd, values⟩ := ofSources_eq_ok Loader.documented_standard []
    [("USER".toText, "a".toText)] (some "SNOWFLAKE_USER=b".toText)
  obtain rfl := Except.ok.inj (hc.symm.trans hd)
  have user := (values .user).symm.trans (strict .user)
  exact absurd user (by decide +kernel)

end Settings

end CortexCall

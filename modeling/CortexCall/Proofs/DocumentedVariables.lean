import CortexCall.Proofs.SettingLoader

/-!
# Which variables configure the program

Every setting has variables that are documented, and these are meant to be all that
configures it. They are not: a setting that none of them gives is taken from a variable
that is called like its field, `USER` for the user and `PASSWORD` for the password, and
such variables stand in environments for reasons of their own.

So two environments, with their files, that agree on the documented variables need not
give the same settings. They do exactly if they agree on what the **ambient** variables
come to, for each setting that no documented variable gives: `load_eq_iff_ambient`. A variable that
is neither documented nor called like a field configures nothing.
-/

namespace CortexCall

/-- Two pairs of an environment and a file **agree on the documented variables**, up to letter
case. -/
def AgreeOnDocumented (e f e' f' : Source) : Prop :=
  ∀ s : Setting, ∀ n ∈ s.documentedNames, e n = e' n ∧ f n = f' n

namespace Setting

variable {e f e' f' : Source} {s : Setting}

/-- What the documented variables of a setting give it, in an environment or else in a
file. -/
def documented (e f : Source) (s : Setting) : Option Text :=
  (s.documentedNames.findSome? e).or (s.documentedNames.findSome? f)

/-- **What a variable gives a setting that is called like its field.** -/
def ambient (e f : Source) (s : Setting) : Option Text := (e s.fieldName).or (f s.fieldName)

theorem documented_congr (agree : AgreeOnDocumented e f e' f') :
    s.documented e f = s.documented e' f' := by
  unfold documented
  rw [findSome?_congr fun n hn => (agree s n hn).1, findSome?_congr fun n hn => (agree s n hn).2]

/-- Without keywords the documented variables are looked through first. -/
theorem lookThrough_places_nil : lookThrough (s.places (.ofKeywords []) e f)
    = (s.documented e f).or (s.ambient e f) := by
  have keywords : s.names.findSome? (Source.ofKeywords []) = none :=
    List.findSome?_eq_none_iff.mpr fun _ _ => rfl
  unfold documented ambient
  rw [lookThrough_places, keywords, Option.none_or, Option.or_assoc]

end Setting

namespace Settings

variable {env env' : Variables} {file file' : Option Text}

/-- **A setting is what its documented variables give it**, or else an ambient one. -/
theorem value_load (env : Variables) (file : Option Text) (s : Setting) :
    (load env file).value s = s.settled ((s.documented (.ofEnvironment env) (.ofFile env file)).or
      (s.ambient (.ofEnvironment env) (.ofFile env file))) := by
  obtain ⟨c, hc, values⟩ := ofSources_eq_ok Loader.documented_standard [] env file
  rw [ofSources_nil] at hc
  obtain rfl := Except.ok.inj hc
  rw [values, Setting.lookThrough_places_nil]

/-- **What is loaded from the same documented variables** is the same exactly if the ambient
variables come to the same for each setting that no documented variable gives. In particular no
variable matters that is neither documented nor called like a field. -/
theorem load_eq_iff_ambient (agree : AgreeOnDocumented (.ofEnvironment env) (.ofFile env file)
      (.ofEnvironment env') (.ofFile env' file')) :
    (load env file = load env' file'
        ↔ ∀ s : Setting, s.documented (.ofEnvironment env) (.ofFile env file) = none →
          s.settled (s.ambient (.ofEnvironment env) (.ofFile env file))
            = s.settled (s.ambient (.ofEnvironment env') (.ofFile env' file')))
      ∧ ((∀ s : Setting,
          Source.ofEnvironment env s.fieldName = Source.ofEnvironment env' s.fieldName
            ∧ Source.ofFile env file s.fieldName = Source.ofFile env' file' s.fieldName) →
        load env file = load env' file') := by
  have same := fun s : Setting => Setting.documented_congr (s := s) agree
  have exact_iff : load env file = load env' file'
      ↔ ∀ s : Setting, s.documented (.ofEnvironment env) (.ofFile env file) = none →
        s.settled (s.ambient (.ofEnvironment env) (.ofFile env file))
          = s.settled (s.ambient (.ofEnvironment env') (.ofFile env' file')) := by
    refine ⟨fun h s hs => ?_, fun h => ext_value fun s => ?_⟩
    · have value := congrArg (fun c => Settings.value c s) h
      rwa [value_load, value_load, ← same, hs, Option.none_or, Option.none_or] at value
    · rw [value_load, value_load, ← same]
      cases hs : s.documented (.ofEnvironment env) (.ofFile env file) with
      | some t => rfl
      | none => exact h s hs
  refine ⟨exact_iff, fun h => exact_iff.mpr fun s _ => ?_⟩
  unfold Setting.ambient
  rw [(h s).1, (h s).2]

/-- An environment with a documented user, and another user of the machine. -/
def ciEnvironment (user : Text) : Variables :=
  [("HOME".toText, user), ("USER".toText, user), ("Snowflake_User".toText, "ci".toText),
    ("PATH".toText, "/bin".toText)]

/-- Whoever uses the machine, the documented user is the one that counts. -/
theorem load_eq_iff_ambient_ci :
    AgreeOnDocumented (.ofEnvironment (ciEnvironment "root".toText))
        (.ofFile (ciEnvironment "root".toText) none)
        (.ofEnvironment (ciEnvironment "build".toText))
        (.ofFile (ciEnvironment "build".toText) none)
      ∧ load (ciEnvironment "root".toText) none = load (ciEnvironment "build".toText) none := by
  have agree : AgreeOnDocumented (.ofEnvironment (ciEnvironment "root".toText))
      (.ofFile (ciEnvironment "root".toText) none)
      (.ofEnvironment (ciEnvironment "build".toText))
      (.ofFile (ciEnvironment "build".toText) none) := fun s => by
    cases s <;> decide +kernel
  refine ⟨agree, (load_eq_iff_ambient agree).1.mpr fun s => ?_⟩
  cases s <;> decide +kernel

/-- **The user of the machine is taken for the user of the connection**: the environments of `root`
and of nobody agree on all documented variables. -/
theorem not_documentedOnly_ambientUser :
    ¬ ∀ (env env' : Variables) (file file' : Option Text),
      AgreeOnDocumented (.ofEnvironment env) (.ofFile env file) (.ofEnvironment env')
        (.ofFile env' file') → load env file = load env' file' := by
  intro h
  have agree : AgreeOnDocumented (.ofEnvironment [("USER".toText, "root".toText)])
      (.ofFile [("USER".toText, "root".toText)] none) (.ofEnvironment []) (.ofFile [] none) :=
    fun s => by cases s <;> decide +kernel
  have same := h [("USER".toText, "root".toText)] [] none none agree
  have user : (load [("USER".toText, "root".toText)] none).connection.username
      ≠ (load [] none).connection.username := by decide +kernel
  exact user (congrArg (fun c => c.connection.username) same)

end Settings

end CortexCall

import CortexCall.Settings.Basic

/-!
# Gathering the settings

A setting may be given by keyword, by an environment variable, or in a file of
variables. A **loader** gathers these sources: it turns each of them into
members, merges the members by name, the earlier source first, and takes from
the result the value of each setting.

Keywords give a setting under its preferred name, whatever name they have it
under. So do variables that have it under a documented name; those that have
it under the name of its field only give it under that. What is merged are
names and not settings, so a setting may stand in the result twice.

The program has its loader from elsewhere, and a `Loader` is a parameter for
this reason. `Loader.standard` is the one that runs: it matches names without
regard to letter case, and of those that differ in case only it takes the
first keyword and the last variable.

`Settings.load` reads the environment and the file, where every value is a
text, and cannot fail. `Settings.ofKeywords` reads keywords and the
environment; a keyword may hold any value, and one that is no text is
refused.
-/

namespace CortexCall

/-- **A loader of settings**, by its steps. -/
structure Loader where
  /-- The members that keywords come to. -/
  ofKeywords : Members → Members
  /-- The members that the variables of an environment or a file come to. -/
  ofVariables : List Dotenv.Binding → Members
  /-- The members of two sources, of which the first comes before the second. -/
  merge : Members → Members → Members
  /-- What a setting takes from members. -/
  take : Setting → Members → Option Json

/-! ## Sources -/

/-- The environment as bindings. -/
def environmentBindings (env : Variables) : List Dotenv.Binding := env.map fun p => (p.1, some p.2)

/-- The bindings of a file in an environment. -/
def fileBindings (env : Variables) : Option Text → List Dotenv.Binding
  | some t => Dotenv.values env t
  | none => []

/-- Variables under their names in small letters. Of names that differ in
case only, the last counts. -/
def foldNames (b : List Dotenv.Binding) : List Dotenv.Binding :=
  b.foldl (fun folded p => Dotenv.bind folded (Text.lower p.1) p.2) []

/-- The value of a variable, if it is set. -/
def valueOf (folded : List Dotenv.Binding) (name : Text) : Option Text :=
  (folded.lookup (Text.lower name)).join

namespace Setting

/-- The value of the first keyword that is a name up to letter case. -/
def keywordValue (keywords : Members) (name : Text) : Option Json :=
  (keywords.find? fun p => Text.lower p.1 == Text.lower name).map Prod.snd

/-- The member that keywords give for a setting. -/
def keywordMember (keywords : Members) (s : Setting) : Option (Text × Json) :=
  (s.names.findSome? (keywordValue keywords)).map fun v => (s.preferredName, v)

/-- The member that variables give for a setting. -/
def variableMember (folded : List Dotenv.Binding) (s : Setting) : Option (Text × Json) :=
  match s.documentedNames.findSome? (valueOf folded) with
  | some t => some (s.preferredName, .str t)
  | none => (valueOf folded s.fieldName).map fun t => (s.fieldName, .str t)

/-- The name by which a setting is reported: the first that is a keyword as
it stands. -/
def reportedName (keywords : Members) (s : Setting) : Text :=
  (s.names.find? fun name => (keywords.get? name).isSome).getD s.preferredName

end Setting

namespace Loader

/-- **The loader that runs.** -/
def standard : Loader where
  ofKeywords k := Setting.all.filterMap (Setting.keywordMember k)
  ofVariables b := Setting.all.filterMap (Setting.variableMember (foldNames b))
  merge m m' := m ++ m'.filter fun p => (m.get? p.1).isNone
  take s m := s.names.findSome? fun n => m.get? n

variable (L : Loader)

/-- All that a loader gathers. -/
def gather (keywords : Members) (environment file : List Dotenv.Binding) : Members :=
  L.merge (L.ofKeywords keywords) (L.merge (L.ofVariables environment) (L.ofVariables file))

/-- What a loader finds for a setting, and the name it is reported by. -/
def find (keywords : Members) (environment file : List Dotenv.Binding) (s : Setting) :
    Option (Text × Json) :=
  (L.take s (L.gather keywords environment file)).map fun v => (s.reportedName keywords, v)

/-- **The settings that a loader gathers**, or the first that is no text. -/
def settings (keywords : Members) (env : Variables) (file : Option Text) :
    Except SettingError Settings :=
  Settings.ofFound (L.find keywords (environmentBindings env) (fileBindings env file))

end Loader

namespace Settings

/-- **The settings that keywords and an environment give.** -/
def ofKeywords (env : Variables) (keywords : Members) : Except SettingError Settings :=
  Loader.standard.settings keywords env none

/-- **The settings that an environment and a file give.** Both hold texts
only, so nothing can be refused. -/
def load (env : Variables) (file : Option Text) : Settings :=
  (Loader.standard.settings [] env file).toOption.getD default

end Settings

end CortexCall

import CortexCall.Text.Case
import CortexCall.Json.Value
import CortexCall.Dispatch
import CortexCall.Settings.Dotenv

/-!
# Settings

A **setting** is one thing a user may configure: the function to call, its
arguments, and what the database connection needs. It goes by several names:
its documented variables in order, and after them the name of its field. What
is found for a setting under these names is a text, and `null` where the
setting is optional; anything else is refused, and what is not found takes its
default, `Settings.ofFound`. Where a setting is looked for is the matter of
`Loader`.
-/

namespace CortexCall

/-- What can be configured. -/
inductive Setting where
  | aiFunction
  | aiArgs
  | account
  | user
  | password
  | privateKeyPath
  | role
  | warehouse
  | database
  | schema
  | logLevel
deriving DecidableEq, Inhabited, Repr

namespace Setting

/-- Every setting, in the order in which they are checked. -/
def all : List Setting :=
  [.aiFunction, .aiArgs, .account, .user, .password, .privateKeyPath, .role, .warehouse,
   .database, .schema, .logLevel]

/-- The variables of a setting as they are documented, in order. -/
def documentedNames : Setting → List Text
  | .aiFunction => ["AI_FUNCTION".toText]
  | .aiArgs => ["AI_ARGS".toText]
  | .account => ["SNOWFLAKE_ACCOUNT".toText, "SNOWFLAKE_ACCOUNT_URL".toText]
  | .user => ["SNOWFLAKE_USER".toText]
  | .password => ["SNOWFLAKE_PASSWORD".toText]
  | .privateKeyPath => ["SNOWFLAKE_PRIVATE_KEY_PATH".toText]
  | .role => ["SNOWFLAKE_ROLE".toText]
  | .warehouse => ["SNOWFLAKE_WAREHOUSE".toText]
  | .database => ["SNOWFLAKE_DATABASE".toText]
  | .schema => ["SNOWFLAKE_SCHEMA".toText]
  | .logLevel => ["SNOWFLAKE_LOG_LEVEL".toText]

/-- The name of the field of a setting. -/
def fieldName : Setting → Text
  | .aiFunction => "ai_function".toText
  | .aiArgs => "ai_args".toText
  | .account => "account".toText
  | .user => "user".toText
  | .password => "password".toText
  | .privateKeyPath => "private_key_path".toText
  | .role => "role".toText
  | .warehouse => "warehouse".toText
  | .database => "database".toText
  | .schema => "snowflake_schema".toText
  | .logLevel => "log_level".toText

/-- Every name of a setting, in order. -/
def names (s : Setting) : List Text := s.documentedNames ++ [s.fieldName]

/-- The name that is used where no other is known. -/
def preferredName (s : Setting) : Text := s.names.headD s.fieldName

/-- Whether a setting may be `null`. -/
def isOptional : Setting → Bool
  | .aiFunction => false
  | _ => true

end Setting

/-- What the connection to the database needs. -/
structure Connection where
  account : Option Text
  username : Option Text
  password : Option Text
  privateKeyPath : Option Text
  role : Option Text
  warehouse : Option Text
  database : Option Text
  schema : Option Text
  logLevel : LogLevel
deriving DecidableEq, Repr

/-- The settings of one run. -/
structure Settings where
  function : Text
  args : Option Text
  connection : Connection
deriving DecidableEq, Repr

/-- A setting holds no text; the name under which it was given. -/
structure SettingError where
  name : Text
deriving DecidableEq, Repr

namespace SettingError

/-- The failure in words. -/
def message (e : SettingError) : Text := e.name ++ ": Input should be a valid string".toText

end SettingError

namespace Setting

/-- The text that was found for a setting, if it is one. -/
def textOf (s : Setting) : Option (Text × Json) → Except SettingError (Option Text)
  | none => .ok none
  | some (_, .str t) => .ok (some t)
  | some (name, .null) => if s.isOptional then .ok none else .error ⟨name⟩
  | some (name, _) => .error ⟨name⟩

/-- The level that was found; what is no text asks for none. -/
def levelOf : Option (Text × Json) → LogLevel
  | some (_, .str t) => .ofText (some t)
  | _ => .ofText none

end Setting

namespace Settings

/-- The function that is called if none is configured. -/
def defaultFunction : Text := AiFunction.complete.name

/-- The settings that a look-up finds, or the first that is no text. -/
def ofFound (found : Setting → Option (Text × Json)) : Except SettingError Settings := do
  let text (s : Setting) : Except SettingError (Option Text) := s.textOf (found s)
  let function ← text .aiFunction
  let args ← text .aiArgs
  let account ← text .account
  let user ← text .user
  let password ← text .password
  let privateKeyPath ← text .privateKeyPath
  let role ← text .role
  let warehouse ← text .warehouse
  let database ← text .database
  let schema ← text .schema
  return ⟨function.getD defaultFunction, args,
    ⟨account, user, password, privateKeyPath, role, warehouse, database, schema,
      Setting.levelOf (found .logLevel)⟩⟩

/-- The settings with nothing configured. -/
def default : Settings :=
  ⟨defaultFunction, none, ⟨none, none, none, none, none, none, none, none, .minimal⟩⟩

end Settings

end CortexCall

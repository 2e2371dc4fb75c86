import SmartContract.Description.Draft
import SmartContract.Json.Basic

/-!
Transcripts. A transcript is a JSON value taken down member by member: it has the members of a
description, each of the right kind, but what a text names is not looked up yet and a number of the
settings stands as it was written. `Transcript.toDraft` is the draft that it becomes.
-/

namespace SmartContract

namespace Transcript

structure Settings where
  auxiliaryVariables : Json.Number
  optimizationLevel : Json.Number
  verboseAssembly : Bool
  version : String
  codeStackPages : Option Json.Number
  userStackPages : Option Json.Number

/-- A name with what is written for its type: an argument or a field. -/
structure TypedName where
  name : String
  type : String

structure Method where
  name : String
  description : Option String
  code : String
  arguments : List TypedName

structure Variable where
  name : String
  type : String
  description : Option String
  constant : Bool
  initializable : Bool
  value : Option String
  fields : Option (List TypedName)

structure Item where
  name : String
  description : Option String
  type : Option String
  constant : Bool
  value : Option String
  entries : Option (List Draft.Entry)

structure KeyMap where
  name : String
  description : Option String
  key1 : Item
  key2 : Item
  value : Item

structure Transaction where
  name : String
  description : Option String
  kind : String

end Transcript

/-- A description taken down from a JSON value. -/
structure Transcript where
  name : String
  description : Option String
  activationAmount : String
  settings : Transcript.Settings
  methods : List Transcript.Method
  stateVariables : List Transcript.Variable
  maps : List Transcript.KeyMap
  transactions : List Transcript.Transaction

end SmartContract

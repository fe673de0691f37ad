/-
# The JSON RPC server

`src/lib/rpcServer/server.js` with its commands (`src/lib/rpcServer/commands/`), their schemas
(`src/lib/rpcServer/schemas/`), `errorHandlerDecorator.js` and `src/lib/utils/Validator.js`.

* Ajv is a parameter: it is known to accept what conforms to the schema, not how it words an error.
* So is jayson: it hands a call to the command of its method, refuses it itself, or never answers.
* A command is a `Program` like the handlers of the core service; the decorator catches what it
  throws.
* `serve_obeys`: what a call asks Core, and what it returns or throws.
-/
import Dapi.CoreHandlers

namespace Dapi

open Async Program

/-! ## Validation -/

/-- `args[name]` -/
def Json.get? (name : String) : Option Json → Option Json
  | some (.object properties) => properties.lookup name
  | _ => none

/-- The schema of a property. -/
inductive PropertySchema
  | integer (minimum : Option ℤ)
  | string
  deriving DecidableEq

/-- The schema of an object. -/
structure Schema where
  properties : List (String × PropertySchema)
  required : List String
  deriving DecidableEq

/-- The value conforms to the schema. -/
def PropertySchema.accepts : PropertySchema → Json → Bool
  | .integer minimum, .number n => n.isInt && minimum.all fun minimum => decide ((minimum : ℚ) ≤ n)
  | .string, .string _ => true
  | _, _ => false

/-- The value is an object with the required properties, and each conforms to its schema. -/
def Schema.accepts (schema : Schema) : Option Json → Bool
  | some (.object properties) =>
    (schema.required.all fun name => (properties.lookup name).isSome) &&
      schema.properties.all fun (name, property) => (properties.lookup name).all property.accepts
  | _ => false

/-- `new Ajv(...).compile(schema)`: the path and the message of the first error, when there is
one. -/
structure Ajv where
  validateArguments : Schema → Option Json → Option (String × String)
  validateArguments_eq_none_iff : ∀ schema args,
    validateArguments schema args = none ↔ schema.accepts args = true

/-- One that names the arguments as a whole. -/
def plainAjv : Ajv where
  validateArguments := fun schema args =>
    if schema.accepts args then none else some ("", "must have required properties")
  validateArguments_eq_none_iff := by simp

/-- The method `validate` of `Validator`. -/
def Ajv.validate (ajv : Ajv) (schema : Schema) (args : Option Json) : Except CoreFailure Unit :=
  match ajv.validateArguments schema args with
  | none => .ok ()
  | some (instancePath, message) =>
    .error (.argumentsValidation ("params" ++ instancePath ++ " " ++ message))

/-! ## Commands -/

/-- A command, from the arguments of a call. -/
abbrev Command := Option Json → CoreProgram Json

namespace Command

/-- `schemas/getBlockHash.json` -/
def getBlockHashSchema : Schema := ⟨[("height", .integer (some 0))], ["height"]⟩

/-- `schemas/getMnListDiff.json` -/
def getMnListDiffSchema : Schema :=
  ⟨[("baseBlockHash", .string), ("blockHash", .string)], ["baseBlockHash", "blockHash"]⟩

/-- `schemas/generateToAddress.json` -/
def generateToAddressSchema : Schema :=
  ⟨[("blocksNumber", .integer (some 1)), ("address", .string)], ["blocksNumber", "address"]⟩

variable (ajv : Ajv)

/-- `commands/getBestBlockHash.js` -/
def getBestBlockHash : Command := fun _ => do
  let hash ← DashCore.getBestBlockHash
  pure (.string hash)

/-- `commands/getBlockHash.js` -/
def getBlockHash : Command := fun args => do
  Program.ofExcept (ajv.validate getBlockHashSchema args)
  let hash ← DashCore.getBlockHash (Json.get? "height" args)
  pure (.string hash)

/-- `commands/getMnListDiff.js` -/
def getMnListDiff : Command := fun args => do
  Program.ofExcept (ajv.validate getMnListDiffSchema args)
  DashCore.getMnListDiff (Json.get? "baseBlockHash" args) (Json.get? "blockHash" args)

/-- `commands/generateToAddress.js` -/
def generateToAddress : Command := fun args => do
  Program.ofExcept (ajv.validate generateToAddressSchema args)
  DashCore.generateToAddress (Json.get? "blocksNumber" args) (Json.get? "address" args)

end Command

/-! ## The decorator -/

/-- The failures that the decorator tells the caller. -/
def isOperationalError : CoreFailure → Bool
  | .argumentsValidation _ | .dashCoreRpc _ | .grpc (.common .InvalidArgumentGrpcError _ _) => true
  | _ => false

/-- What the decorator throws for what it catches. -/
def decoratedFailure : CoreFailure → CoreFailure
  | .rpc error => .rpc error
  | e =>
    if isOperationalError e then .rpc ⟨-32602, e.message, none⟩
    else .rpc ⟨-32603, "Internal error", none⟩

/-- The decorator of all commands. -/
def errorHandlerDecorator (command : Command) : Command := fun args =>
  (command args).tryCatch fun e => throw (decoratedFailure e)

/-! ## The server -/

/-- `network === 'regtest'` -/
def isRegtest (network : String) : Bool := network = "regtest"

/-- `/^devnet/.test(network)` -/
def isDevnet (network : String) : Bool := "devnet".toList.isPrefixOf network.toList

/-- The commands of every network. -/
def createCommands (ajv : Ajv) : List (String × Command) :=
  [("getBestBlockHash", Command.getBestBlockHash), ("getBlockHash", Command.getBlockHash ajv),
    ("getMnListDiff", Command.getMnListDiff ajv)]

/-- The commands of test networks. -/
def createRegtestCommands (ajv : Ajv) : List (String × Command) :=
  [("generateToAddress", Command.generateToAddress ajv)]

/-- The commands that `start` serves on a network. -/
def allCommands (ajv : Ajv) (networkType : String) : List (String × Command) :=
  let areRegtestCommandsEnabled := isRegtest networkType || isDevnet networkType
  let commands :=
    if areRegtestCommandsEnabled then createCommands ajv ++ createRegtestCommands ajv
    else createCommands ajv
  commands.map fun (commandName, command) => (commandName, errorHandlerDecorator command)

/-- What jayson does with a call: it calls the method, answers with an error of its own, or never
answers. -/
inductive Dispatch
  | call
  | refuse (error : RPCError)
  | ignore

/-- `jayson.server(methods)`, over the names of the methods.  It calls no other method. -/
structure Jayson where
  dispatch : List String → String → Option Json → Dispatch
  mem_of_call : ∀ names method params, dispatch names method params = .call → method ∈ names

/-- One that wants parameters by name or by position. -/
def plainJayson : Jayson where
  dispatch names method params :=
    match params with
    | none | some (.object _) | some (.array _) =>
      if method ∈ names then .call else .refuse ⟨-32601, "Method not found", none⟩
    | _ => .refuse ⟨-32600, "Invalid request", none⟩
  mem_of_call names method params h := by
    split at h
    · split_ifs at h with hmem
      · exact hmem
    · split_ifs at h with hmem
      · exact hmem
    · split_ifs at h with hmem
      · exact hmem
    · cases h

/-- The names under which a network has commands. -/
def commandNames (ajv : Ajv) (networkType : String) : List String :=
  (allCommands ajv networkType).map Prod.fst

/-- A call of the server; `none` is a call that is not answered. -/
def serve (jayson : Jayson) (ajv : Ajv) (networkType method : String) (params : Option Json) :
    CoreProgram (Option Json) :=
  match jayson.dispatch (commandNames ajv networkType) method params with
  | .call =>
    match (allCommands ajv networkType).lookup method with
    | some command => do
      let result ← command params
      pure (some result)
    | none => pure none
  | .refuse error => throw (.rpc error)
  | .ignore => pure none

/-! ## What a call asks, returns and throws -/

namespace CallCommand

variable (jayson : Jayson) (ajv : Ajv) (networkType method : String) (params : Option Json)

/-- What a call may ask Core: what its method is for, with the values of its parameters, and blocks
only in a test network. -/
inductive MayAsk : CoreConversation → DashCoreRequest → Prop
  | getBestBlockHash (hmethod : method = "getBestBlockHash") : MayAsk [] .getBestBlockHash
  | getBlockHash (hmethod : method = "getBlockHash") (height : ℕ)
    (hheight : Json.get? "height" params = some (.number height)) :
    MayAsk [] (.getBlockHash (some (.number height)))
  | getMnListDiff (hmethod : method = "getMnListDiff") (baseBlockHash blockHash : String)
    (hbase : Json.get? "baseBlockHash" params = some (.string baseBlockHash))
    (hblock : Json.get? "blockHash" params = some (.string blockHash)) :
    MayAsk [] (.getMnListDiff (some (.string baseBlockHash)) (some (.string blockHash)))
  | generateToAddress (hmethod : method = "generateToAddress")
    (hnetwork : isRegtest networkType = true ∨ isDevnet networkType = true) (blocksNumber : ℕ)
    (hblocks : 1 ≤ blocksNumber) (address : String)
    (hnumber : Json.get? "blocksNumber" params = some (.number blocksNumber))
    (haddress : Json.get? "address" params = some (.string address)) :
    MayAsk [] (.generateToAddress (some (.number blocksNumber)) (some (.string address)))

/-- The errors of a command: the arguments are wrong, or what the decorator makes of the failure of
the request. -/
inductive CommandFails : CoreFailure → CoreConversation → Prop
  | arguments (text : String) : CommandFails (.rpc ⟨-32602, "params" ++ text, none⟩) []
  | core (r : DashCoreRequest) (e : CoreFailure) :
    CommandFails (decoratedFailure e) [⟨r, .error e⟩]

/-- The errors that a caller gets: jayson refuses the call, or a command that the network has
fails. -/
inductive Fails : CoreFailure → CoreConversation → Prop
  | refused (error : RPCError)
    (h : jayson.dispatch (commandNames ajv networkType) method params = .refuse error) :
    Fails (.rpc error) []
  | command (hmethod : method ∈ commandNames ajv networkType) {e : CoreFailure}
    {c : CoreConversation} (h : CommandFails e c) : Fails e c

/-- The result is what Core has answered. -/
inductive Returns : Json → CoreConversation → Prop
  | getBestBlockHash (hash : String) : Returns (.string hash) [⟨.getBestBlockHash, .ok hash⟩]
  | getBlockHash (index : Option Json) (hash : String) :
    Returns (.string hash) [⟨.getBlockHash index, .ok hash⟩]
  | getMnListDiff (baseBlockHash blockHash : Option Json) (diff : Json) :
    Returns diff [⟨.getMnListDiff baseBlockHash blockHash, .ok diff⟩]
  | generateToAddress (blocksNumber address : Option Json) (blockHashes : Json) :
    Returns blockHashes [⟨.generateToAddress blocksNumber address, .ok blockHashes⟩]

/-- What a call ends with: nothing, when jayson ignores it, or the result of a command. -/
inductive Ends : Option Json → CoreConversation → Prop
  | ignored (h : jayson.dispatch (commandNames ajv networkType) method params = .ignore) :
    Ends none []
  | returned (hmethod : method ∈ commandNames ajv networkType) {result : Json}
    {c : CoreConversation} (h : Returns result c) : Ends (some result) c

/-- A result is the one of a command. -/
theorem Ends.returns {result : Json} {c : CoreConversation}
    (h : Ends jayson ajv networkType method params (some result) c) : Returns result c := by
  cases h with
  | returned _ h => exact h

/-- A result is told after one request. -/
theorem Returns.exists_eq {result : Json} {c : CoreConversation} (h : Returns result c) :
    ∃ r a, c = [⟨r, .ok a⟩] := by
  cases h <;> exact ⟨_, _, rfl⟩

end CallCommand

section

variable {ajv : Ajv} {networkType : String} {args : Option Json}

/-- A property of an accepted object conforms to its schema. -/
theorem Schema.exists_get?_of_accepts {schema : Schema} (h : schema.accepts args = true)
    {name : String} {property : PropertySchema} (hname : name ∈ schema.required)
    (hproperty : (name, property) ∈ schema.properties) :
    ∃ value, Json.get? name args = some value ∧ property.accepts value = true := by
  cases args with
  | none => cases h
  | some args =>
      cases args with
      | object properties =>
          have hand := Bool.and_eq_true_iff.mp h
          have hsome := List.all_eq_true.mp hand.1 name hname
          have haccepts := List.all_eq_true.mp hand.2 (name, property) hproperty
          obtain ⟨value, hvalue⟩ := Option.isSome_iff_exists.mp hsome
          refine ⟨value, hvalue, ?_⟩
          simpa [hvalue] using haccepts
      | _ => cases h

/-- A string is accepted where one is asked for. -/
theorem PropertySchema.eq_string_of_accepts {value : Json} (h : string.accepts value = true) :
    ∃ s, value = .string s := by
  cases value with
  | string s => exact ⟨s, rfl⟩
  | _ => cases h

/-- A natural number is accepted where one from a minimum on is asked for. -/
theorem PropertySchema.eq_number_of_accepts {minimum : ℕ} {value : Json}
    (h : (integer (some minimum)).accepts value = true) :
    ∃ n : ℕ, value = .number n ∧ minimum ≤ n := by
  cases value with
  | number n =>
      obtain ⟨hint, hle⟩ := Bool.and_eq_true_iff.mp h
      have hnum : (n.num : ℚ) = n := (Rat.eq_num_of_isInt hint).symm
      have hle' : ((minimum : ℤ) : ℚ) ≤ (n.num : ℚ) := by
        rw [hnum]
        simpa using hle
      have hmin : (minimum : ℤ) ≤ n.num := by exact_mod_cast hle'
      obtain ⟨m, hm⟩ := Int.eq_ofNat_of_zero_le (le_trans (Int.natCast_nonneg minimum) hmin)
      refine ⟨m, ?_, by omega⟩
      rw [← hnum, hm]
      rfl
  | _ => cases h

/-- Arguments that pass the validation conform to the schema. -/
theorem Ajv.accepts_of_validate {schema : Schema} (h : ajv.validate schema args = .ok ()) :
    schema.accepts args = true := by
  refine (ajv.validateArguments_eq_none_iff schema args).mp ?_
  unfold validate at h
  cases hresult : ajv.validateArguments schema args with
  | none => rfl
  | some error =>
      simp only [hresult] at h
      cases h

/-- The error of the validation says that it is about the parameters. -/
theorem Ajv.validate_error {schema : Schema} {e : CoreFailure}
    (h : ajv.validate schema args = .error e) :
    ∃ message, e = .argumentsValidation ("params" ++ message) := by
  unfold validate at h
  cases hresult : ajv.validateArguments schema args with
  | none =>
      simp only [hresult] at h
      cases h
  | some error =>
      simp only [hresult] at h
      refine ⟨error.1 ++ " " ++ error.2, (Except.error.inj h).symm.trans ?_⟩
      simp only [String.append_assoc]

namespace CallCommand

variable {method : String}

/-- A command that validates first, under the decorator. -/
theorem validate_obeys {schema : Schema} {p : CoreProgram Json}
    (h : schema.accepts args = true →
      p.Obeys (Protocol.remembering (MayAsk networkType method args)) Returns
        (fun e c => CommandFails (decoratedFailure e) c) []) :
    (((Program.ofExcept (ajv.validate schema args)).bind fun _ => p).tryCatch fun e =>
      throw (decoratedFailure e)).Obeys (Protocol.remembering (MayAsk networkType method args))
        Returns CommandFails [] := by
  refine obeys_tryCatch (obeys_bind (obeys_ofExcept (fun _ hvalid => ?_) fun e he => ?_))
  · exact h (ajv.accepts_of_validate hvalid)
  · obtain ⟨message, rfl⟩ := ajv.validate_error he
    exact .arguments message

/-- The command asks for the best block hash. -/
theorem getBestBlockHash_obeys (hmethod : method = "getBestBlockHash") :
    (errorHandlerDecorator Command.getBestBlockHash args).Obeys
      (Protocol.remembering (MayAsk networkType method args)) Returns CommandFails [] :=
  obeys_tryCatch (obeys_bind (obeys_issue (.getBestBlockHash hmethod)
    (fun hash => .getBestBlockHash hash) fun e => .core _ e))

/-- The command asks for the block hash at a height. -/
theorem getBlockHash_obeys (hmethod : method = "getBlockHash") :
    (errorHandlerDecorator (Command.getBlockHash ajv) args).Obeys
      (Protocol.remembering (MayAsk networkType method args)) Returns CommandFails [] := by
  refine validate_obeys fun haccepts => ?_
  obtain ⟨height, hheight, hinteger⟩ :=
    Schema.exists_get?_of_accepts haccepts List.mem_cons_self List.mem_cons_self
  obtain ⟨n, rfl, -⟩ : ∃ n : ℕ, height = .number n ∧ 0 ≤ n :=
    PropertySchema.eq_number_of_accepts hinteger
  rw [hheight]
  exact obeys_bind (obeys_issue (.getBlockHash hmethod n hheight)
    (fun hash => .getBlockHash _ hash) fun e => .core _ e)

/-- The command asks for the difference between two lists of masternodes. -/
theorem getMnListDiff_obeys (hmethod : method = "getMnListDiff") :
    (errorHandlerDecorator (Command.getMnListDiff ajv) args).Obeys
      (Protocol.remembering (MayAsk networkType method args)) Returns CommandFails [] := by
  refine validate_obeys fun haccepts => ?_
  obtain ⟨base, hbase, hbaseString⟩ :=
    Schema.exists_get?_of_accepts haccepts List.mem_cons_self List.mem_cons_self
  obtain ⟨block, hblock, hblockString⟩ := Schema.exists_get?_of_accepts haccepts
    (List.mem_cons_of_mem _ List.mem_cons_self) (List.mem_cons_of_mem _ List.mem_cons_self)
  obtain ⟨baseBlockHash, rfl⟩ := PropertySchema.eq_string_of_accepts hbaseString
  obtain ⟨blockHash, rfl⟩ := PropertySchema.eq_string_of_accepts hblockString
  rw [hbase, hblock]
  exact obeys_issue (.getMnListDiff hmethod baseBlockHash blockHash hbase hblock)
    (fun diff => .getMnListDiff _ _ diff) fun e => .core _ e

/-- The command asks for blocks. -/
theorem generateToAddress_obeys (hmethod : method = "generateToAddress")
    (hnetwork : isRegtest networkType = true ∨ isDevnet networkType = true) :
    (errorHandlerDecorator (Command.generateToAddress ajv) args).Obeys
      (Protocol.remembering (MayAsk networkType method args)) Returns CommandFails [] := by
  refine validate_obeys fun haccepts => ?_
  obtain ⟨blocks, hblocks, hinteger⟩ :=
    Schema.exists_get?_of_accepts haccepts List.mem_cons_self List.mem_cons_self
  obtain ⟨target, htarget, hstring⟩ := Schema.exists_get?_of_accepts haccepts
    (List.mem_cons_of_mem _ List.mem_cons_self) (List.mem_cons_of_mem _ List.mem_cons_self)
  obtain ⟨blocksNumber, rfl, hle⟩ : ∃ n : ℕ, blocks = .number n ∧ 1 ≤ n :=
    PropertySchema.eq_number_of_accepts hinteger
  obtain ⟨address, rfl⟩ := PropertySchema.eq_string_of_accepts hstring
  rw [hblocks, htarget]
  exact obeys_issue (.generateToAddress hmethod hnetwork blocksNumber hle address hblocks htarget)
    (fun blockHashes => .generateToAddress _ _ blockHashes) fun e => .core _ e

end CallCommand

/-- **What a command asks, returns and throws**, whatever Core answers. -/
theorem command_obeys (networkType method : String) {command : Command}
    (hmem : (method, command) ∈ allCommands ajv networkType) (params : Option Json) :
    (command params).Obeys (Protocol.remembering (CallCommand.MayAsk networkType method params))
      CallCommand.Returns CallCommand.CommandFails [] := by
  obtain ⟨⟨name, plain⟩, hplain, hpair⟩ := List.mem_map.mp hmem
  cases hpair
  have hcommon : (method, plain) ∈ createCommands ajv →
      (errorHandlerDecorator plain params).Obeys
        (Protocol.remembering (CallCommand.MayAsk networkType method params))
          CallCommand.Returns CallCommand.CommandFails [] := by
    intro h
    simp only [createCommands, List.mem_cons, Prod.mk.injEq, List.not_mem_nil, or_false] at h
    rcases h with ⟨hmethod, rfl⟩ | ⟨hmethod, rfl⟩ | ⟨hmethod, rfl⟩
    · exact CallCommand.getBestBlockHash_obeys hmethod
    · exact CallCommand.getBlockHash_obeys hmethod
    · exact CallCommand.getMnListDiff_obeys hmethod
  -- the command for blocks is there in a test network only
  split_ifs at hplain with hnetwork
  · rcases List.mem_append.mp hplain with h | h
    · exact hcommon h
    · simp only [createRegtestCommands, List.mem_singleton, Prod.mk.injEq] at h
      obtain ⟨hmethod, rfl⟩ := h
      exact CallCommand.generateToAddress_obeys hmethod (by simpa using hnetwork)
  · exact hcommon hplain

/-- **What a call of the server asks, ends with and throws**, whatever Core answers. -/
theorem serve_obeys (jayson : Jayson) (ajv : Ajv) (networkType method : String)
    (params : Option Json) :
    (serve jayson ajv networkType method params).Obeys
      (Protocol.remembering (CallCommand.MayAsk networkType method params))
      (CallCommand.Ends jayson ajv networkType method params)
      (CallCommand.Fails jayson ajv networkType method params) [] := by
  unfold serve
  cases hdispatch : jayson.dispatch (commandNames ajv networkType) method params with
  | refuse error => exact .refused error hdispatch
  | ignore => exact .ignored hdispatch
  | call =>
      -- the method has a name of a command
      have hmethod := jayson.mem_of_call _ _ _ hdispatch
      cases hlookup : (allCommands ajv networkType).lookup method with
      | none =>
          obtain ⟨⟨name, command⟩, hmem, rfl⟩ := List.mem_map.mp hmethod
          have hne := List.lookup_eq_none_iff.mp hlookup _ hmem
          simp at hne
      | some command =>
          obtain ⟨before, after, heq, -⟩ := List.lookup_eq_some_iff.mp hlookup
          have hmem : (method, command) ∈ allCommands ajv networkType := by simp [heq]
          exact obeys_bind ((command_obeys networkType method hmem params).mono
            (fun _ _ h => .returned hmethod h) fun _ _ h => .command hmethod h)

end

end Dapi

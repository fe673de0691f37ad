/-
# The configuration

`src/lib/config/index.js` and `src/lib/config/validator.js`: what both processes read from their
environment, and check, before they start.

* A number is `none` when it is `NaN`, and else the integer that was spelled.  JavaScript rounds it
  from 2^53 on, which no comparison with a port can tell; how a number is written is left to a
  `NumberLib`.
* `Spells` is the grammar that `parseInt` reads (`parseInt_eq_some_iff`); a number that is written
  is read back (`parseInt_toString`).
* `AtFault` says of an environment which options keep the processes from starting.
* `validationErrors_eq`: the validation tells these, and nothing else.
-/
import Mathlib

namespace Dapi

/-! ## Numbers in texts -/

/-- A white space or a line terminator of JavaScript. -/
def isStrWhiteSpaceChar (c : Char) : Bool :=
  decide (9 ≤ c.toNat ∧ c.toNat ≤ 13 ∨ 0x2000 ≤ c.toNat ∧ c.toNat ≤ 0x200a) ||
    [0x20, 0xa0, 0x1680, 0x2028, 0x2029, 0x202f, 0x205f, 0x3000, 0xfeff].contains c.toNat

/-- The sign at the start, and what follows it. -/
def readSign : List Char → ℤ × List Char
  | '-' :: cs => (-1, cs)
  | '+' :: cs => (1, cs)
  | cs => (1, cs)

/-- `parseInt(text, 10)` -/
def parseInt (text : String) : Option ℤ :=
  let (sign, cs) := readSign (text.toList.dropWhile isStrWhiteSpaceChar)
  match cs.takeWhile Char.isDigit with
  | [] => none
  | digits => some (sign * Nat.ofDigitChars 10 digits 0)

/-- A sign and its value. -/
inductive Sign : List Char → ℤ → Prop
  | none : Sign [] 1
  | plus : Sign ['+'] 1
  | minus : Sign ['-'] (-1)

/-- **The text starts with an integer**, after white space and a sign, and whatever follows it. -/
inductive Spells : List Char → ℤ → Prop
  | intro (space : List Char) {signText : List Char} {sign : ℤ} (digits rest : List Char)
    (hspace : ∀ c ∈ space, isStrWhiteSpaceChar c = true) (hsign : Sign signText sign)
    (hne : digits ≠ []) (hdigits : ∀ c ∈ digits, c.isDigit = true)
    (hrest : ∀ c ∈ rest.head?, c.isDigit = false) :
    Spells (space ++ (signText ++ (digits ++ rest))) (sign * Nat.ofDigitChars 10 digits 0)

/-- A digit is no white space. -/
theorem not_isStrWhiteSpaceChar_of_isDigit {c : Char} (h : c.isDigit = true) :
    isStrWhiteSpaceChar c = false := by
  have hrange : 48 ≤ c.toNat ∧ c.toNat ≤ 57 := by
    simpa [Char.isDigit, UInt32.le_iff_toNat_le] using h
  unfold isStrWhiteSpaceChar
  simp
  omega

/-- A digit is no sign. -/
theorem readSign_of_isDigit {c : Char} (h : c.isDigit = true) (cs : List Char) :
    readSign (c :: cs) = (1, c :: cs) := by
  unfold readSign
  split
  · rename_i heq
    cases heq
    cases h
  · rename_i heq
    cases heq
    cases h
  · rfl

/-- The digits after a sign. -/
theorem readSign_append {signText digits : List Char} {sign : ℤ} (hsign : Sign signText sign)
    (hne : digits ≠ []) (hdigits : ∀ c ∈ digits, c.isDigit = true) (rest : List Char) :
    readSign (signText ++ (digits ++ rest)) = (sign, digits ++ rest) := by
  cases hsign with
  | none =>
      cases digits with
      | nil => exact absurd rfl hne
      | cons c cs => exact readSign_of_isDigit (hdigits c List.mem_cons_self) (cs ++ rest)
  | plus => rfl
  | minus => rfl

/-- What is read is a sign. -/
theorem exists_sign (cs : List Char) :
    ∃ signText, Sign signText (readSign cs).1 ∧ cs = signText ++ (readSign cs).2 := by
  unfold readSign
  split
  · exact ⟨_, .minus, rfl⟩
  · exact ⟨_, .plus, rfl⟩
  · exact ⟨_, .none, rfl⟩

/-- The white space is skipped, and no more. -/
theorem dropWhile_space {space signText digits : List Char} {sign : ℤ}
    (hspace : ∀ c ∈ space, isStrWhiteSpaceChar c = true) (hsign : Sign signText sign)
    (hne : digits ≠ []) (hdigits : ∀ c ∈ digits, c.isDigit = true) (rest : List Char) :
    (space ++ (signText ++ (digits ++ rest))).dropWhile isStrWhiteSpaceChar =
      signText ++ (digits ++ rest) := by
  rw [List.dropWhile_append_of_pos hspace]
  cases hsign with
  | none =>
      cases digits with
      | nil => exact absurd rfl hne
      | cons c cs =>
          have hc := not_isStrWhiteSpaceChar_of_isDigit (hdigits c List.mem_cons_self)
          exact List.dropWhile_cons_of_neg (by simp [hc])
  | plus => exact List.dropWhile_cons_of_neg (by decide)
  | minus => exact List.dropWhile_cons_of_neg (by decide)

/-- The digits at the start are taken, and no more. -/
theorem takeWhile_digits {digits rest : List Char} (hdigits : ∀ c ∈ digits, c.isDigit = true)
    (hrest : ∀ c ∈ rest.head?, c.isDigit = false) :
    (digits ++ rest).takeWhile Char.isDigit = digits := by
  rw [List.takeWhile_append_of_pos hdigits]
  cases rest with
  | nil => simp
  | cons c cs => simp [hrest c rfl]

/-- **What `parseInt` reads.** -/
theorem parseInt_eq_some_iff (text : String) (n : ℤ) :
    parseInt text = some n ↔ Spells text.toList n := by
  constructor
  · intro h
    unfold parseInt at h
    obtain ⟨signText, hsign, hrest⟩ := exists_sign (text.toList.dropWhile isStrWhiteSpaceChar)
    revert h hsign hrest
    generalize readSign (text.toList.dropWhile isStrWhiteSpaceChar) = read
    intro h hsign hrest
    have hsplit : text.toList = text.toList.takeWhile isStrWhiteSpaceChar ++
        (signText ++ (read.2.takeWhile Char.isDigit ++ read.2.dropWhile Char.isDigit)) := by
      rw [List.takeWhile_append_dropWhile, ← hrest, List.takeWhile_append_dropWhile]
    simp only at h
    split at h
    · cases h
    · rename_i hne
      cases h
      rw [hsplit]
      refine .intro _ _ _ (fun c hc => List.mem_takeWhile_imp hc) hsign (fun hnil => hne hnil)
        (fun c hc => List.mem_takeWhile_imp hc) fun c hc => ?_
      have hstop := List.head?_dropWhile_not Char.isDigit read.2
      rwa [Option.mem_def.mp hc] at hstop
  · intro h
    generalize htext : text.toList = cs at h
    cases h with
    | intro space digits rest hspace hsign hne hdigits hrest =>
        unfold parseInt
        rw [htext, dropWhile_space hspace hsign hne hdigits, readSign_append hsign hne hdigits]
        simp only [takeWhile_digits hdigits hrest]

/-- **A number that is written is read back.** -/
theorem parseInt_toString (n : ℕ) : parseInt (toString n) = some (n : ℤ) := by
  refine (parseInt_eq_some_iff _ _).mpr ?_
  have hspells : Spells ([] ++ ([] ++ (Nat.toDigits 10 n ++ [])))
      (1 * Nat.ofDigitChars 10 (Nat.toDigits 10 n) 0) := by
    refine .intro [] (Nat.toDigits 10 n) [] (fun c hc => absurd hc List.not_mem_nil) .none
      Nat.toDigits_ne_nil (fun c hc => ?_) (fun c hc => by cases hc)
    exact Nat.isDigit_of_mem_toDigits (by decide) (by decide) hc
  rw [Nat.ofDigitChars_ten_toDigits, one_mul] at hspells
  simpa [Nat.toString_eq_ofList_toDigits] using hspells

/-! ## The configuration -/

/-- `OPTIONS` -/
inductive ConfigOption
  | LIVENET
  | API_JSON_RPC_PORT
  | API_GRPC_PORT
  | TX_FILTER_STREAM_GRPC_PORT
  | DASHCORE_RPC_PROTOCOL
  | DASHCORE_RPC_USER
  | DASHCORE_RPC_PASS
  | DASHCORE_RPC_HOST
  | DASHCORE_RPC_PORT
  | DASHCORE_ZMQ_HOST
  | DASHCORE_ZMQ_PORT
  | DASHCORE_P2P_HOST
  | DASHCORE_P2P_PORT
  | DASHCORE_P2P_NETWORK
  | NETWORK
  | BLOOM_FILTER_PERSISTENCE_TIMEOUT
  | TENDERMINT_RPC_HOST
  | TENDERMINT_RPC_PORT
  deriving DecidableEq

/-- The value of an entry of `OPTIONS`: its key. -/
def ConfigOption.name : ConfigOption → String
  | LIVENET => "LIVENET"
  | API_JSON_RPC_PORT => "API_JSON_RPC_PORT"
  | API_GRPC_PORT => "API_GRPC_PORT"
  | TX_FILTER_STREAM_GRPC_PORT => "TX_FILTER_STREAM_GRPC_PORT"
  | DASHCORE_RPC_PROTOCOL => "DASHCORE_RPC_PROTOCOL"
  | DASHCORE_RPC_USER => "DASHCORE_RPC_USER"
  | DASHCORE_RPC_PASS => "DASHCORE_RPC_PASS"
  | DASHCORE_RPC_HOST => "DASHCORE_RPC_HOST"
  | DASHCORE_RPC_PORT => "DASHCORE_RPC_PORT"
  | DASHCORE_ZMQ_HOST => "DASHCORE_ZMQ_HOST"
  | DASHCORE_ZMQ_PORT => "DASHCORE_ZMQ_PORT"
  | DASHCORE_P2P_HOST => "DASHCORE_P2P_HOST"
  | DASHCORE_P2P_PORT => "DASHCORE_P2P_PORT"
  | DASHCORE_P2P_NETWORK => "DASHCORE_P2P_NETWORK"
  | NETWORK => "NETWORK"
  | BLOOM_FILTER_PERSISTENCE_TIMEOUT => "BLOOM_FILTER_PERSISTENCE_TIMEOUT"
  | TENDERMINT_RPC_HOST => "TENDERMINT_RPC_HOST"
  | TENDERMINT_RPC_PORT => "TENDERMINT_RPC_PORT"

/-- The value of an option. -/
inductive ConfigValue
  | boolean (b : Bool)
  | number (n : ℕ)
  | string (s : String)
  deriving DecidableEq

/-- The value as a text. -/
def ConfigValue.text : ConfigValue → String
  | .boolean b => if b then "true" else "false"
  | .number n => toString n
  | .string s => s

/-- `Boolean(value)` -/
def ConfigValue.isTruthy : ConfigValue → Bool
  | .boolean b => b
  | .number n => n ≠ 0
  | .string s => s ≠ ""

/-- `process.env` -/
abbrev Env := ConfigOption → Option String

/-- `DEFAULT_CONFIG`.  The defaults of `DRIVE_RPC_HOST` and `DRIVE_RPC_PORT`, which are no options,
are not those of Tendermint. -/
def defaultConfig : ConfigOption → Option ConfigValue
  | .LIVENET => some (.boolean false)
  | .API_JSON_RPC_PORT => some (.number 2501)
  | .API_GRPC_PORT => some (.number 2500)
  | .TX_FILTER_STREAM_GRPC_PORT => some (.number 2510)
  | .DASHCORE_RPC_PROTOCOL => some (.string "http")
  | .DASHCORE_RPC_USER => some (.string "dashrpc")
  | .DASHCORE_RPC_PASS => some (.string "password")
  | .DASHCORE_RPC_HOST => some (.string "127.0.0.1")
  | .DASHCORE_RPC_PORT => some (.number 30002)
  | .DASHCORE_ZMQ_HOST => some (.string "127.0.0.1")
  | .DASHCORE_ZMQ_PORT => some (.number 30003)
  | .DASHCORE_P2P_HOST => some (.string "127.0.0.1")
  | .DASHCORE_P2P_PORT => some (.number 30001)
  | .DASHCORE_P2P_NETWORK => some (.string "testnet")
  | .NETWORK => some (.string "testnet")
  | .BLOOM_FILTER_PERSISTENCE_TIMEOUT => some (.number (1000 * 60))
  | .TENDERMINT_RPC_HOST | .TENDERMINT_RPC_PORT => none

/-- What the environment says; a variable that is empty is not set. -/
def envConfig (env : Env) (optionName : ConfigOption) : Option ConfigValue :=
  match env optionName with
  | some value => if value = "" then none else some (.string value)
  | none => none

/-- `Object.assign({}, DEFAULT_CONFIG, envConfig)` -/
def assignedConfig (env : Env) (optionName : ConfigOption) : Option ConfigValue :=
  (envConfig env optionName).or (defaultConfig optionName)

/-- `parseInt(config[optionName], 10)` -/
def portOf (env : Env) (optionName : ConfigOption) : Option ℤ :=
  (assignedConfig env optionName).bind fun value => parseInt value.text

/-- A port to listen on. -/
structure ServerConfig where
  port : Option ℤ

/-- The options of the tx-filter-stream process. -/
structure TxFilterStreamConfig where
  grpcServer : ServerConfig

/-- The options of Core's JSON RPC. -/
structure DashcoreRpcConfig where
  protocol : Option ConfigValue
  user : Option ConfigValue
  pass : Option ConfigValue
  host : Option ConfigValue
  port : Option ℤ

/-- The options of Core's ZMQ. -/
structure DashcoreZmqConfig where
  host : Option ConfigValue
  port : Option ℤ

/-- The options of Core's network. -/
structure DashcoreP2pConfig where
  host : Option ConfigValue
  port : Option ℤ
  network : Option ConfigValue

/-- The options of Core. -/
structure DashcoreConfig where
  rpc : DashcoreRpcConfig
  zmq : DashcoreZmqConfig
  p2p : DashcoreP2pConfig

/-- The options of Tendermint. -/
structure TendermintCoreConfig where
  host : Option ConfigValue
  port : Option ℤ

/-- The exported object. -/
structure Config where
  livenet : Bool
  rpcServer : ServerConfig
  grpcServer : ServerConfig
  txFilterStream : TxFilterStreamConfig
  dashcore : DashcoreConfig
  network : String
  bloomFilterPersistenceTimeout : Option ConfigValue
  tendermintCore : TendermintCoreConfig

/-- What `src/lib/config/index.js` exports. -/
def config (env : Env) : Config where
  livenet := (assignedConfig env .LIVENET).any ConfigValue.isTruthy
  rpcServer := ⟨portOf env .API_JSON_RPC_PORT⟩
  grpcServer := ⟨portOf env .API_GRPC_PORT⟩
  txFilterStream := ⟨⟨portOf env .TX_FILTER_STREAM_GRPC_PORT⟩⟩
  dashcore := {
    rpc := {
      protocol := assignedConfig env .DASHCORE_RPC_PROTOCOL
      user := assignedConfig env .DASHCORE_RPC_USER
      pass := assignedConfig env .DASHCORE_RPC_PASS
      host := assignedConfig env .DASHCORE_RPC_HOST
      port := portOf env .DASHCORE_RPC_PORT }
    zmq := ⟨assignedConfig env .DASHCORE_ZMQ_HOST, portOf env .DASHCORE_ZMQ_PORT⟩
    p2p := ⟨assignedConfig env .DASHCORE_P2P_HOST, portOf env .DASHCORE_P2P_PORT,
      assignedConfig env .DASHCORE_P2P_NETWORK⟩ }
  network := ((assignedConfig env .NETWORK).map ConfigValue.text).elim "" String.toLower
  bloomFilterPersistenceTimeout := assignedConfig env .BLOOM_FILTER_PERSISTENCE_TIMEOUT
  tendermintCore := ⟨assignedConfig env .TENDERMINT_RPC_HOST, portOf env .TENDERMINT_RPC_PORT⟩

/-! ## The validation -/

/-- What a check returns. -/
structure ValidationResult where
  isValid : Bool
  validationError : Option String
  deriving DecidableEq

/-- A host in a text. -/
def hostText (host : Option ConfigValue) : String := (host.map ConfigValue.text).getD "undefined"

/-- What the validation uses of numbers: their text, and `isUnsignedInteger` of dashcore-lib. -/
structure NumberLib where
  text : Option ℤ → String
  isUnsignedInteger : Option ℤ → Bool
  isUnsignedInteger_iff : ∀ n : ℤ, n ≤ 65535 → (isUnsignedInteger (some n) = true ↔ 0 ≤ n)
  isUnsignedInteger_none : isUnsignedInteger none = false

/-- Numbers that are written with all their digits. -/
def exactNumbers : NumberLib where
  text port := (port.map toString).getD "NaN"
  isUnsignedInteger port := port.any fun port => decide (0 ≤ port)
  isUnsignedInteger_iff n _ := by simp
  isUnsignedInteger_none := rfl

/-- The check of a host. -/
def validateHost (host : Option ConfigValue) (parameterName : String) : ValidationResult :=
  let isValid :=
    match host with
    | some (.string host) => decide (host ≠ "")
    | _ => false
  ⟨isValid, if isValid then none
    else some (parameterName ++ " value is not valid. Valid host or ip address expected, found: " ++
      hostText host)⟩

/-- The check of a port.  One that is handed over as a text is read back as it was. -/
def validatePort (lib : NumberLib) (port : Option ℤ) (parameterName : String) :
    ValidationResult :=
  let isValid := lib.isUnsignedInteger port && port.any fun port => decide (port ≤ 65535)
  ⟨isValid, if isValid then none
    else some (parameterName ++ " value is not valid. Valid port expected, found: " ++
      lib.text port)⟩

/-- What `validateConfig` returns. -/
structure ConfigValidation where
  isValid : Bool
  validationErrors : List (Option String)
  deriving DecidableEq

/-- The checks, in their order. -/
def validationResults (lib : NumberLib) (config : Config) : List ValidationResult :=
  [validateHost config.dashcore.p2p.host "DASHCORE_P2P_HOST",
    validatePort lib config.dashcore.p2p.port "DASHCORE_P2P_PORT",
    validateHost config.dashcore.rpc.host "DASHCORE_RPC_HOST",
    validatePort lib config.dashcore.rpc.port "DASHCORE_RPC_PORT",
    validateHost config.dashcore.zmq.host "DASHCORE_ZMQ_HOST",
    validatePort lib config.dashcore.zmq.port "DASHCORE_ZMQ_PORT",
    validateHost config.tendermintCore.host "TENDERMINT_RPC_HOST",
    validatePort lib config.tendermintCore.port "TENDERMINT_RPC_PORT",
    validatePort lib config.rpcServer.port "API_JSON_RPC_PORT",
    validatePort lib config.grpcServer.port "API_GRPC_PORT",
    validatePort lib config.txFilterStream.grpcServer.port "TX_FILTER_STREAM_GRPC_PORT"]

/-- The errors of the checks that fail. -/
def validateConfig (lib : NumberLib) (config : Config) : ConfigValidation :=
  let validationErrors := ((validationResults lib config).filter fun validationResult =>
    !validationResult.isValid).map ValidationResult.validationError
  ⟨decide (validationErrors.length < 1), validationErrors⟩

/-! ## What is at fault -/

/-- The text starts with the number of a port. -/
def SpellsPort (text : String) : Prop := ∃ n : ℤ, Spells text.toList n ∧ 0 ≤ n ∧ n ≤ 65535

/-- **The option is at fault**: one without a default is not set, or what is set is no port. -/
def AtFault (env : Env) (optionName : ConfigOption) : Prop :=
  match optionName with
  | .TENDERMINT_RPC_HOST => ∀ text, env optionName = some text → text = ""
  | .TENDERMINT_RPC_PORT => ∀ text, env optionName = some text → ¬ SpellsPort text
  | .API_JSON_RPC_PORT | .API_GRPC_PORT | .TX_FILTER_STREAM_GRPC_PORT | .DASHCORE_RPC_PORT
  | .DASHCORE_ZMQ_PORT | .DASHCORE_P2P_PORT =>
    ∃ text, env optionName = some text ∧ text ≠ "" ∧ ¬ SpellsPort text
  | _ => False

/-- The options that are checked, in the order of the checks. -/
def checkedOptions : List ConfigOption :=
  [.DASHCORE_P2P_HOST, .DASHCORE_P2P_PORT, .DASHCORE_RPC_HOST, .DASHCORE_RPC_PORT,
    .DASHCORE_ZMQ_HOST, .DASHCORE_ZMQ_PORT, .TENDERMINT_RPC_HOST, .TENDERMINT_RPC_PORT,
    .API_JSON_RPC_PORT, .API_GRPC_PORT, .TX_FILTER_STREAM_GRPC_PORT]

/-- Which of them are hosts. -/
def ConfigOption.isHost : ConfigOption → Bool
  | DASHCORE_P2P_HOST | DASHCORE_RPC_HOST | DASHCORE_ZMQ_HOST | TENDERMINT_RPC_HOST => true
  | _ => false

/-- The error that names an option, and what it was found to be. -/
def errorText (lib : NumberLib) (env : Env) (optionName : ConfigOption) : String :=
  if optionName.isHost then
    optionName.name ++ " value is not valid. Valid host or ip address expected, found: " ++
      hostText (assignedConfig env optionName)
  else
    optionName.name ++ " value is not valid. Valid port expected, found: " ++
      lib.text (portOf env optionName)

/-- The check of an option. -/
def validateOption (lib : NumberLib) (env : Env) (optionName : ConfigOption) : ValidationResult :=
  if optionName.isHost then validateHost (assignedConfig env optionName) optionName.name
  else validatePort lib (portOf env optionName) optionName.name

variable {lib : NumberLib} {env : Env} {optionName : ConfigOption}

/-- A check that fails tells its error. -/
theorem validationError_eq (h : (validateOption lib env optionName).isValid = false) :
    (validateOption lib env optionName).validationError = some (errorText lib env optionName) := by
  unfold validateOption errorText at *
  split_ifs at h ⊢
  · simp only [validateHost] at h ⊢
    rw [h]
    rfl
  · simp only [validatePort] at h ⊢
    rw [h]
    rfl

/-- What is set counts, unless it is empty. -/
theorem assignedConfig_of_env {text : String} (h : env optionName = some text) (hne : text ≠ "") :
    assignedConfig env optionName = some (.string text) := by
  simp [assignedConfig, envConfig, h, hne]

/-- Where nothing is set, the default counts. -/
theorem assignedConfig_of_unset (h : ∀ text, env optionName = some text → text = "") :
    assignedConfig env optionName = defaultConfig optionName := by
  unfold assignedConfig envConfig
  cases henv : env optionName with
  | none => rfl
  | some text => simp [h text henv]

/-- The check of a port wants a number from 0 to 65535, whatever else `isUnsignedInteger` says. -/
theorem isValid_validatePort_iff {port : Option ℤ} {parameterName : String} :
    (validatePort lib port parameterName).isValid = true ↔
      ∃ n, port = some n ∧ 0 ≤ n ∧ n ≤ 65535 := by
  cases port with
  | none => simp [validatePort, lib.isUnsignedInteger_none]
  | some n =>
      by_cases hle : n ≤ 65535
      · simp [validatePort, hle, lib.isUnsignedInteger_iff n hle]
      · simp [validatePort, hle]

/-- The check of a text that is parsed. -/
theorem isValid_port_iff {text : String} {parameterName : String} :
    (validatePort lib (parseInt text) parameterName).isValid = true ↔ SpellsPort text := by
  rw [isValid_validatePort_iff]
  simp only [SpellsPort, parseInt_eq_some_iff]

/-- The empty text spells no port. -/
theorem not_spellsPort_empty : ¬ SpellsPort "" := by
  rintro ⟨n, hn, -⟩
  have h := (parseInt_eq_some_iff "" n).mpr hn
  cases h

/-- What is set, or nothing that counts. -/
theorem set_or_unset (env : Env) (optionName : ConfigOption) :
    (∃ text, env optionName = some text ∧ text ≠ "") ∨
      ∀ text, env optionName = some text → text = "" := by
  by_cases h : ∃ text, env optionName = some text ∧ text ≠ ""
  · exact Or.inl h
  · push Not at h
    exact Or.inr h

/-- A port that is set is the one that the text starts with. -/
theorem isValid_port_of_env {text : String} (henv : env optionName = some text) (hne : text ≠ "") :
    (validatePort lib (portOf env optionName) optionName.name).isValid = true ↔
      SpellsPort text := by
  unfold portOf
  rw [assignedConfig_of_env henv hne]
  exact isValid_port_iff

/-- A port with a default is at fault only if something else is set. -/
theorem isValid_port_of_default {port : ℕ}
    (hdefault : defaultConfig optionName = some (.number port)) (hport : port ≤ 65535) :
    (validatePort lib (portOf env optionName) optionName.name).isValid = true ↔
      ¬ ∃ text, env optionName = some text ∧ text ≠ "" ∧ ¬ SpellsPort text := by
  rcases set_or_unset env optionName with ⟨text, henv, hne⟩ | hunset
  · rw [isValid_port_of_env henv hne]
    constructor
    · rintro hspells ⟨text', henv', -, hnot⟩
      cases henv.symm.trans henv'
      exact hnot hspells
    · intro h
      by_contra hnot
      exact h ⟨text, henv, hne, hnot⟩
  · refine iff_of_true ?_ fun ⟨text, henv, hne, _⟩ => hne (hunset text henv)
    have hread : portOf env optionName = some (port : ℤ) := by
      unfold portOf
      rw [assignedConfig_of_unset hunset, hdefault]
      exact parseInt_toString port
    rw [hread]
    exact isValid_validatePort_iff.mpr ⟨port, rfl, by omega, by omega⟩

/-- A port without a default is at fault also if nothing is set. -/
theorem isValid_port_of_no_default (hdefault : defaultConfig optionName = none) :
    (validatePort lib (portOf env optionName) optionName.name).isValid = true ↔
      ¬ ∀ text, env optionName = some text → ¬ SpellsPort text := by
  rcases set_or_unset env optionName with ⟨text, henv, hne⟩ | hunset
  · rw [isValid_port_of_env henv hne]
    constructor
    · intro hspells h
      exact h text henv hspells
    · intro h
      by_contra hnot
      refine h fun text' henv' => ?_
      cases henv.symm.trans henv'
      exact hnot
  · have hread : portOf env optionName = none := by
      unfold portOf
      rw [assignedConfig_of_unset hunset, hdefault]
      rfl
    rw [hread]
    refine iff_of_false (by simp [isValid_validatePort_iff]) fun h => h fun text henv => ?_
    rw [hunset text henv]
    exact not_spellsPort_empty

/-- A host that is set is valid. -/
theorem isValid_host_of_env {text : String} (henv : env optionName = some text) (hne : text ≠ "") :
    (validateHost (assignedConfig env optionName) optionName.name).isValid = true := by
  rw [assignedConfig_of_env henv hne]
  exact decide_eq_true hne

/-- A host with a default is valid. -/
theorem isValid_host_of_default {host : String}
    (hdefault : defaultConfig optionName = some (.string host)) (hhost : host ≠ "") :
    (validateHost (assignedConfig env optionName) optionName.name).isValid = true := by
  rcases set_or_unset env optionName with ⟨text, henv, hne⟩ | hunset
  · exact isValid_host_of_env henv hne
  · rw [assignedConfig_of_unset hunset, hdefault]
    exact decide_eq_true hhost

/-- A host without a default has to be set. -/
theorem isValid_host_of_no_default (hdefault : defaultConfig optionName = none) :
    (validateHost (assignedConfig env optionName) optionName.name).isValid = true ↔
      ¬ ∀ text, env optionName = some text → text = "" := by
  rcases set_or_unset env optionName with ⟨text, henv, hne⟩ | hunset
  · exact iff_of_true (isValid_host_of_env henv hne) fun h => hne (h text henv)
  · rw [assignedConfig_of_unset hunset, hdefault]
    exact iff_of_false (by simp [validateHost]) fun h => h hunset

/-- **A check fails for an option at fault, and for no other.** -/
theorem isValid_validateOption_iff (h : optionName ∈ checkedOptions) :
    (validateOption lib env optionName).isValid = true ↔ ¬ AtFault env optionName := by
  cases optionName with
  | TENDERMINT_RPC_HOST => exact isValid_host_of_no_default rfl
  | TENDERMINT_RPC_PORT => exact isValid_port_of_no_default rfl
  | DASHCORE_P2P_HOST | DASHCORE_RPC_HOST | DASHCORE_ZMQ_HOST =>
      exact iff_of_true (isValid_host_of_default rfl (by decide)) not_false
  | API_JSON_RPC_PORT | API_GRPC_PORT | TX_FILTER_STREAM_GRPC_PORT | DASHCORE_RPC_PORT
  | DASHCORE_ZMQ_PORT | DASHCORE_P2P_PORT => exact isValid_port_of_default rfl (by decide)
  | _ => exact absurd h (by decide)

open Classical in
/-- **What is told is what is at fault.**  For every environment, the errors of the validation are
those of the options at fault, one for each, in the order of the checks; and the configuration is
valid exactly when no option is at fault: the host and the port of Tendermint are set, as they have
no defaults, and every port that is set starts with the number of one. -/
theorem validationErrors_eq (lib : NumberLib) (env : Env) :
    (validateConfig lib (config env)).validationErrors =
      (checkedOptions.filter fun optionName => AtFault env optionName).map
        (fun optionName => some (errorText lib env optionName)) ∧
      ((validateConfig lib (config env)).isValid = true ↔
        ∀ optionName ∈ checkedOptions, ¬ AtFault env optionName) := by
  have hresults : validationResults lib (config env) =
      checkedOptions.map (validateOption lib env) := rfl
  have herrors : (validateConfig lib (config env)).validationErrors =
      (checkedOptions.filter fun optionName => AtFault env optionName).map
        (fun optionName => some (errorText lib env optionName)) := by
    have hfilter : (checkedOptions.filter fun optionName =>
        !(validateOption lib env optionName).isValid) =
          checkedOptions.filter fun optionName => AtFault env optionName := by
      refine List.filter_congr fun optionName hmem => ?_
      rw [Bool.eq_iff_iff, decide_eq_true_iff, Bool.not_eq_true', ← Bool.not_eq_true,
        isValid_validateOption_iff hmem, not_not]
    unfold validateConfig
    rw [hresults, List.filter_map, List.map_map, ← hfilter]
    refine List.map_congr_left fun optionName hmem => ?_
    have hinvalid := (List.mem_filter.mp hmem).2
    exact validationError_eq (by simpa using hinvalid)
  refine ⟨herrors, ?_⟩
  have hvalid : (validateConfig lib (config env)).isValid = true ↔
      (validateConfig lib (config env)).validationErrors = [] := by
    simp [validateConfig]
  rw [hvalid, herrors, List.map_eq_nil_iff, List.filter_eq_nil_iff]
  simp

/-- An empty environment does not name a Tendermint node. -/
example : (validateConfig exactNumbers (config fun _ => none)).validationErrors =
    [some ("TENDERMINT_RPC_HOST value is not valid. " ++
        "Valid host or ip address expected, found: undefined"),
      some "TENDERMINT_RPC_PORT value is not valid. Valid port expected, found: NaN"] := by
  rfl

end Dapi

/-
# What a client is told of Drive's errors

`src/lib/grpcServer/handlers/createGrpcErrorFromDriveResponse.js` turns the code and the info of
Drive into an error of gRPC.  A client sees the status, the message and the metadata of it.

* `Status.driveCode` and `Status.driveData` are how a client reads Drive's report back.
* `shownCode` is the code that it then has: the codes of gRPC and those of the Dash Platform
  Protocol are told, the others have one code in common.
* `codes_told_apart_iff`: no client can do better.
* `tells_of_createGrpcError`: the data is told with the code.
-/
import Dapi.AbciResult

namespace Dapi

/-! ## The status -/

/-- The code that a class gives to its errors. -/
def CommonErrorClass.getCode : CommonErrorClass → ℤ
  | .InvalidArgumentGrpcError => GrpcErrorCodes.INVALID_ARGUMENT
  | .DeadlineExceededGrpcError => GrpcErrorCodes.DEADLINE_EXCEEDED
  | .NotFoundGrpcError => GrpcErrorCodes.NOT_FOUND
  | .AlreadyExistsGrpcError => GrpcErrorCodes.ALREADY_EXISTS
  | .ResourceExhaustedGrpcError => GrpcErrorCodes.RESOURCE_EXHAUSTED
  | .FailedPreconditionGrpcError => GrpcErrorCodes.FAILED_PRECONDITION
  | .UnavailableGrpcError => GrpcErrorCodes.UNAVAILABLE

namespace GrpcError

/-- `getCode()` -/
def getCode : GrpcError → ℤ
  | .common errorClass _ _ => errorClass.getCode
  | .internal _ _ _ => GrpcErrorCodes.INTERNAL
  | .other code _ _ => code

/-- `getMessage()`, empty when there is none; the class of internal errors has a fixed one. -/
def getMessage : GrpcError → String
  | .common _ message _ | .other _ message _ => message.getD ""
  | .internal _ _ _ => "Internal error"

/-- `getRawMetadata()` -/
def getRawMetadata : GrpcError → Option Metadata
  | .common _ _ metadata | .internal _ _ metadata | .other _ _ metadata => metadata

end GrpcError

/-- What a client is sent of an error. -/
structure Status where
  code : ℤ
  message : String
  metadata : Metadata
  deriving DecidableEq

/-- The status of an error.  Metadata without entries are sent when there are none. -/
def GrpcError.toStatus (error : GrpcError) : Status :=
  ⟨error.getCode, error.getMessage, error.getRawMetadata.getD .empty⟩

namespace Status

/-- Drive's code is the one in the metadata, and else the status itself. -/
def driveCode (status : Status) : ℤ :=
  match status.metadata with
  | .drive (some code) _ => code
  | _ => status.code

/-- Drive's data; without an entry for it, it was empty. -/
def driveData {D : Type} (lib : DriveErrorLib D) (decodeData : Buffer → D) (status : Status) : D :=
  match status.metadata with
  | .drive _ (some driveErrorDataBin) => decodeData driveErrorDataBin
  | _ => lib.emptyData

end Status

/-- What is relied on of cbor and of objects: an object that was encoded is decoded again, and
`{}` is the one without keys. -/
structure DriveErrorLib.Lawful {D : Type} (lib : DriveErrorLib D) (decodeData : Buffer → D) :
    Prop where
  decodeData_encode : ∀ data, decodeData (lib.encode data) = data
  hasNoKeys_iff : ∀ data, lib.hasNoKeys data = true ↔ data = lib.emptyData
  stack_emptyData : lib.stack lib.emptyData = none

/-! ## The code -/

/-- The code that a client has of a code of Drive. -/
def shownCode (code : ℤ) : ℤ :=
  if code ≤ 16 then code
  else if code < 1000 then GrpcErrorCodes.UNKNOWN
  else if code < 5000 then code
  else GrpcErrorCodes.INTERNAL

/-- Which codes are told. -/
theorem shownCode_eq_self_iff (code : ℤ) :
    shownCode code = code ↔ code ≤ 16 ∨ 1000 ≤ code ∧ code < 5000 := by
  unfold shownCode GrpcErrorCodes.UNKNOWN GrpcErrorCodes.INTERNAL
  split_ifs <;> omega

/-- A code is told, or it becomes one of two. -/
theorem shownCode_cases (code : ℤ) : shownCode code = code ∨
    shownCode code = GrpcErrorCodes.UNKNOWN ∨ shownCode code = GrpcErrorCodes.INTERNAL := by
  unfold shownCode
  split_ifs
  · exact Or.inl rfl
  · exact Or.inr (Or.inl rfl)
  · exact Or.inl rfl
  · exact Or.inr (Or.inr rfl)

/-- Codes are confused only as unknown ones, or as internal ones. -/
theorem shownCode_of_eq {code code' : ℤ} (h : shownCode code = shownCode code')
    (hne : code ≠ code') :
    shownCode code = GrpcErrorCodes.UNKNOWN ∨ shownCode code = GrpcErrorCodes.INTERNAL := by
  rcases shownCode_cases code with hself | hshown
  · rcases shownCode_cases code' with hself' | hshown'
    · exact absurd ((hself.symm.trans h).trans hself') hne
    · rwa [← h] at hshown'
  · exact hshown

section

variable {D : Type} {lib : DriveErrorLib D} {code : ℤ} {message : Option String} {data : D}

/-- The table of classes is right about their codes. -/
theorem getCode_of_COMMON_ERROR_CLASSES {errorClass : CommonErrorClass}
    (h : COMMON_ERROR_CLASSES code = some errorClass) : errorClass.getCode = code := by
  unfold COMMON_ERROR_CLASSES at h
  split_ifs at h with h₁ h₂ h₃ h₄ h₅ h₆ h₇ <;> cases h
  exacts [h₁.symm, h₂.symm, h₃.symm, h₄.symm, h₅.symm, h₆.symm, h₇.symm]

/-- The data that is told with a code: an internal error is told without its stack. -/
def shownData (lib : DriveErrorLib D) (code : ℤ) (data : D) : D :=
  if code = GrpcErrorCodes.INTERNAL ∧ (lib.stack data).isSome then lib.deleteStack data else data

/-- The message that is told with a code: that of an internal error is not. -/
def shownMessage (code : ℤ) (message : Option String) : String :=
  if code = GrpcErrorCodes.INTERNAL then "Internal error" else message.getD ""

/-- The data of any other error is told whole. -/
theorem shownData_of_ne (h : code ≠ GrpcErrorCodes.INTERNAL) : shownData lib code data = data :=
  if_neg fun hinternal => h hinternal.1

/-- So is its message. -/
theorem shownMessage_of_ne (h : code ≠ GrpcErrorCodes.INTERNAL) :
    shownMessage code message = message.getD "" :=
  if_neg h

/-- The status for a gRPC code. -/
theorem createGrpcCodeError_toStatus :
    (createGrpcCodeError lib code message data).toStatus =
      ⟨code, shownMessage code message, createRawMetadata lib none (shownData lib code data)⟩ := by
  unfold createGrpcCodeError
  cases hclass : COMMON_ERROR_CLASSES code with
  | some errorClass =>
      have hcode := getCode_of_COMMON_ERROR_CLASSES hclass
      have hne : code ≠ GrpcErrorCodes.INTERNAL := by
        rw [← hcode]
        cases errorClass <;> decide
      rw [shownMessage_of_ne hne, shownData_of_ne hne, ← hcode]
      rfl
  | none =>
      by_cases hinternal : code = GrpcErrorCodes.INTERNAL
      · subst hinternal
        cases hstack : lib.stack data <;> simp [shownMessage, shownData, hstack, GrpcError.toStatus,
          GrpcError.getCode, GrpcError.getMessage, GrpcError.getRawMetadata]
      · rw [shownMessage_of_ne hinternal, shownData_of_ne hinternal]
        simp [hinternal, GrpcError.toStatus, GrpcError.getCode, GrpcError.getMessage,
          GrpcError.getRawMetadata]

/-- The status for a code of the Dash Platform Protocol. -/
def dppStatus (code : ℤ) : ℤ :=
  if code < 2000 then GrpcErrorCodes.INVALID_ARGUMENT
  else if code < 3000 then GrpcErrorCodes.UNAUTHENTICATED
  else if code < 4000 then GrpcErrorCodes.FAILED_PRECONDITION
  else GrpcErrorCodes.INVALID_ARGUMENT

/-- The error for such a code has this status. -/
theorem createDppError_toStatus (message : String) :
    (createDppError lib code message data).toStatus =
      ⟨dppStatus code, message, createRawMetadata lib (some code) data⟩ := by
  unfold createDppError dppStatus
  split_ifs <;> rfl

/-- The code is read back from the metadata, or from the status. -/
@[simp] theorem driveCode_createRawMetadata (message : String) (code' : Option ℤ) :
    (Status.mk code message (createRawMetadata lib code' data)).driveCode = code'.getD code := by
  unfold createRawMetadata Status.driveCode
  cases code' <;> split_ifs <;> rfl

/-- The data is read back from the metadata. -/
theorem driveData_createRawMetadata {decodeData : Buffer → D} (hlib : lib.Lawful decodeData)
    (message : String) (code' : Option ℤ) :
    (Status.mk code message (createRawMetadata lib code' data)).driveData lib decodeData =
      data := by
  unfold createRawMetadata Status.driveData
  by_cases hempty : lib.hasNoKeys data = true
  · rw [if_pos hempty]
    exact ((hlib.hasNoKeys_iff data).mp hempty).symm
  · rw [if_neg hempty]
    exact hlib.decodeData_encode data

/-- **What becomes of a report**, by its code. -/
theorem toStatus_of_createGrpcError {info : Option Buffer} {error : GrpcError}
    (h : createGrpcErrorFromDriveResponse lib (some code) info = .ok error) :
    ∃ message data, decodeInfo lib info = .ok (message, data) ∧
      ((code ≤ 16 ∧ error.toStatus =
          ⟨code, shownMessage code message, createRawMetadata lib none (shownData lib code data)⟩) ∨
        (16 < code ∧ code < 1000 ∧ error.toStatus =
          ⟨GrpcErrorCodes.UNKNOWN, message.getD "", createRawMetadata lib none data⟩) ∨
        (1000 ≤ code ∧ code < 5000 ∧ ∃ message, error.toStatus =
          ⟨dppStatus code, message, createRawMetadata lib (some code) data⟩) ∨
        (5000 ≤ code ∧ error.toStatus =
          ⟨GrpcErrorCodes.INTERNAL, "Internal error", .empty⟩)) := by
  unfold createGrpcErrorFromDriveResponse at h
  cases hinfo : decodeInfo lib info with
  | error message =>
      simp only [hinfo] at h
      cases h
  | ok report =>
      obtain ⟨message, data⟩ := report
      simp only [hinfo] at h
      refine ⟨message, data, rfl, ?_⟩
      split_ifs at h with hgrpc hunknown hdpp
      · cases h
        exact Or.inl ⟨hgrpc, createGrpcCodeError_toStatus⟩
      · cases h
        exact Or.inr (Or.inl ⟨not_le.mp hgrpc, hunknown, rfl⟩)
      · cases hmessage : lib.createConsensusError code data with
        | ok message' =>
            simp only [hmessage] at h
            cases h
            exact Or.inr (Or.inr (Or.inl
              ⟨not_lt.mp hunknown, hdpp, message', createDppError_toStatus message'⟩))
        | error message' =>
            simp only [hmessage] at h
            cases h
      · cases h
        exact Or.inr (Or.inr (Or.inr ⟨not_lt.mp hdpp, rfl⟩))

/-- **The code that a client reads back.** -/
theorem driveCode_of_createGrpcError {info : Option Buffer} {error : GrpcError}
    (h : createGrpcErrorFromDriveResponse lib (some code) info = .ok error) :
    error.toStatus.driveCode = shownCode code := by
  obtain ⟨message, data, -, ⟨hle, heq⟩ | ⟨hlt, hlt', heq⟩ | ⟨hle, hlt, message', heq⟩ |
    ⟨hle, heq⟩⟩ := toStatus_of_createGrpcError h
  · rw [heq, driveCode_createRawMetadata, shownCode, if_pos hle]
    rfl
  · rw [heq, driveCode_createRawMetadata, shownCode, if_neg (not_le.mpr hlt), if_pos hlt']
    rfl
  · rw [heq, driveCode_createRawMetadata, shownCode, if_neg (by omega), if_neg (not_lt.mpr hle),
      if_pos hlt]
    rfl
  · rw [heq, shownCode, if_neg (by omega), if_neg (by omega), if_neg (not_lt.mpr hle)]
    rfl

/-- A code that is not told itself, and no info. -/
theorem exists_toStatus_of_shownCode {decodeData : Buffer → D} (hlib : lib.Lawful decodeData)
    (h : shownCode code = GrpcErrorCodes.UNKNOWN ∨ shownCode code = GrpcErrorCodes.INTERNAL) :
    ∃ error, createGrpcErrorFromDriveResponse lib (some code) none = .ok error ∧
      error.toStatus =
        ⟨shownCode code, shownMessage (shownCode code) none, .empty⟩ := by
  have hempty : createRawMetadata lib none lib.emptyData = .empty := by
    rw [createRawMetadata, if_pos ((hlib.hasNoKeys_iff _).mpr rfl)]
    rfl
  have hdata : ∀ code, shownData lib code lib.emptyData = lib.emptyData := by
    intro code
    rw [shownData, if_neg]
    rintro ⟨-, hsome⟩
    rw [hlib.stack_emptyData] at hsome
    cases hsome
  have hinfo : decodeInfo lib none = .ok (none, lib.emptyData) := rfl
  unfold createGrpcErrorFromDriveResponse
  simp only [hinfo]
  by_cases hgrpc : code ≤ 16
  · refine ⟨_, if_pos hgrpc, ?_⟩
    rw [createGrpcCodeError_toStatus, hdata, hempty, shownCode, if_pos hgrpc]
  · by_cases hunknown : code < 1000
    · refine ⟨_, (if_neg hgrpc).trans (if_pos hunknown), ?_⟩
      rw [shownCode, if_neg hgrpc, if_pos hunknown, hempty]
      rfl
    · have hdpp : ¬ code < 5000 := by
        intro hlt
        rw [shownCode, if_neg hgrpc, if_neg hunknown, if_pos hlt] at h
        unfold GrpcErrorCodes.UNKNOWN GrpcErrorCodes.INTERNAL at h
        omega
      refine ⟨_, (if_neg hgrpc).trans ((if_neg hunknown).trans (if_neg hdpp)), ?_⟩
      rw [shownCode, if_neg hgrpc, if_neg hunknown, if_neg hdpp]
      rfl

/-- **The status tells a report**: its code, as far as codes are told, and its data. -/
structure Status.Tells (lib : DriveErrorLib D) (decodeData : Buffer → D) (code : ℤ)
    (info : Option Buffer) (status : Status) : Prop where
  driveCode : status.driveCode = shownCode code
  driveData : ∀ message data, decodeInfo lib info = .ok (message, data) → code < 5000 →
    status.driveData lib decodeData = shownData lib code data

/-- **The error tells the report** that it is made from. -/
theorem tells_of_createGrpcError {decodeData : Buffer → D} (hlib : lib.Lawful decodeData)
    {info : Option Buffer} {error : GrpcError}
    (h : createGrpcErrorFromDriveResponse lib (some code) info = .ok error) :
    error.toStatus.Tells lib decodeData code info := by
  refine ⟨driveCode_of_createGrpcError h, fun message data hinfo hlt => ?_⟩
  obtain ⟨message', data', hinfo', hcases⟩ := toStatus_of_createGrpcError h
  obtain ⟨rfl, rfl⟩ := Prod.mk.inj (Except.ok.inj (hinfo'.symm.trans hinfo))
  have hne : 16 < code → code ≠ GrpcErrorCodes.INTERNAL := by
    unfold GrpcErrorCodes.INTERNAL
    omega
  rcases hcases with ⟨-, heq⟩ | ⟨hgt, -, heq⟩ | ⟨hle, -, _, heq⟩ | ⟨hle, -⟩
  · rw [heq, driveData_createRawMetadata hlib]
  · rw [heq, driveData_createRawMetadata hlib, shownData_of_ne (hne hgt)]
  · rw [heq, driveData_createRawMetadata hlib, shownData_of_ne (hne (by omega))]
  · exact absurd hlt (not_lt.mpr hle)

/-- A failure of Drive is told, or a library does not know what to make of it. -/
theorem driveFailure_tells {decodeData : Buffer → D} (hlib : lib.Lawful decodeData)
    {result : AbciResult} (hcode : result.code = some code) :
    (∃ error, driveFailure lib result = .grpc error ∧
        error.toStatus.Tells lib decodeData code result.info) ∨
      ∃ message, driveFailure lib result = .library message ∧
        createGrpcErrorFromDriveResponse lib (some code) result.info = .error message := by
  unfold driveFailure
  rw [hcode]
  cases herror : createGrpcErrorFromDriveResponse lib (some code) result.info with
  | ok error => exact Or.inl ⟨error, rfl, tells_of_createGrpcError hlib herror⟩
  | error message => exact Or.inr ⟨message, rfl, rfl⟩

end

/-- **Which codes a client can tell apart.**  Two codes of Drive are sometimes sent as the same
status, message and metadata exactly when they are shown as one code; so whatever a client reads,
it has the code itself for the codes of gRPC and of the Dash Platform Protocol but for unknown and
internal errors, and cannot have it for the others. -/
theorem codes_told_apart_iff {D : Type} (lib : DriveErrorLib D) (decodeData : Buffer → D)
    (hlib : lib.Lawful decodeData) (code code' : ℤ) (hne : code ≠ code') :
    (∃ info info' error error',
      createGrpcErrorFromDriveResponse lib (some code) info = .ok error ∧
        createGrpcErrorFromDriveResponse lib (some code') info' = .ok error' ∧
          error.toStatus = error'.toStatus) ↔ shownCode code = shownCode code' := by
  constructor
  · rintro ⟨info, info', error, error', herror, herror', heq⟩
    rw [← driveCode_of_createGrpcError herror, heq, driveCode_of_createGrpcError herror']
  · intro heq
    have hshown := shownCode_of_eq heq hne
    obtain ⟨error, herror, hstatus⟩ := exists_toStatus_of_shownCode hlib hshown
    obtain ⟨error', herror', hstatus'⟩ :=
      exists_toStatus_of_shownCode hlib (heq ▸ hshown)
    exact ⟨none, none, error, error', herror, herror', by rw [hstatus, hstatus', heq]⟩

/-- A library for objects of at most one byte. -/
def byteErrorLib : DriveErrorLib (Option UInt8) where
  decode buffer := .ok (none, some buffer.head?)
  encode data := data.toList
  emptyData := none
  hasNoKeys data := data.isNone
  stack _ := none
  deleteStack data := data
  createConsensusError _ _ := .ok "invalid"

/-- It decodes what it encodes. -/
theorem byteErrorLib_lawful : byteErrorLib.Lawful (fun buffer => buffer.head?) where
  decodeData_encode data := by cases data <;> rfl
  hasNoKeys_iff data := by cases data <;> simp [byteErrorLib]
  stack_emptyData := rfl

/-- Two unknown codes are sent as one. -/
theorem codes_told_apart_unknown : ∃ info info' error error',
    createGrpcErrorFromDriveResponse byteErrorLib (some 17) info = .ok error ∧
      createGrpcErrorFromDriveResponse byteErrorLib (some 999) info' = .ok error' ∧
        error.toStatus = error'.toStatus :=
  (codes_told_apart_iff byteErrorLib _ byteErrorLib_lawful 17 999
    (by decide)).mpr (by decide)

end Dapi

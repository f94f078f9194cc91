import Mathlib.Tactic

/-! Status codes: the module number in the high byte, the code in the low byte. -/
namespace KenningRuntime

/-- `status_t`, an `int32_t`, as its bits. -/
abbrev Status := BitVec 32

def statusOk : Status := 0

/-- `GENERATE_ERROR`, with the two field offsets of `STATUS_MASK_MODULE` and `STATUS_MASK_CODE`. -/
def generateError (module code : ℕ) : Status :=
  BitVec.ofNat 32 (((module <<< 8) &&& 0xFF00) ||| ((code <<< 0) &&& 0xFF))

/-- The enum made of `MODULES`; number 0 is `SKIP_ZERO`. -/
inductive Module where
  | callbacks
  | loaders
  | inferenceServer
  | kenningProtocol
  | model
  | protocol
  | runtimeWrapper
  | logger
deriving DecidableEq, Repr

namespace Module

def number : Module → ℕ
  | callbacks => 1
  | loaders => 2
  | inferenceServer => 3
  | kenningProtocol => 4
  | model => 5
  | protocol => 6
  | runtimeWrapper => 7
  | logger => 8

/-- Entry `code` of the enum that `GENERATE_MODULE_STATUSES` makes for a module: entry 0 is the
unused `_STATUS_OK`, entries 1 to 5 are generic, the module's own follow. -/
def status (m : Module) (code : ℕ) : Status := generateError m.number 0 + BitVec.ofNat 32 code

def statusError (m : Module) : Status := m.status 1
def statusInvPtr (m : Module) : Status := m.status 2
def statusInvArg (m : Module) : Status := m.status 3
def statusUninit (m : Module) : Status := m.status 4
def statusTimeout (m : Module) : Status := m.status 5

end Module

def loadersStatusNotEnoughMemory : Status := Module.loaders.status 6

def kenningProtocolStatusLowerLayerError : Status := Module.kenningProtocol.status 6
def kenningProtocolStatusInvalidMessageType : Status := Module.kenningProtocol.status 7
def kenningProtocolStatusMsgTooBig : Status := Module.kenningProtocol.status 9
def kenningProtocolStatusFlowControlError : Status := Module.kenningProtocol.status 10
def kenningProtocolStatusBusy : Status := Module.kenningProtocol.status 11
def kenningProtocolStatusTimeout : Status := Module.kenningProtocol.statusTimeout

def protocolStatusTimeout : Status := Module.protocol.statusTimeout

def modelStatusInvState : Status := Module.model.status 6
def callbacksStatusInvMsgType : Status := Module.callbacks.status 6

/-- No status of a module is `STATUS_OK`: the module number is not zero. -/
theorem status_ne_ok (m : Module) {code : ℕ} (hc : code < 256) : m.status code ≠ statusOk := by
  intro h
  have hn := congrArg BitVec.toNat h
  cases m <;>
    simp [Module.status, Module.number, generateError, statusOk, BitVec.toNat_add] at hn <;> omega

theorem notEnoughMemory_ne : loadersStatusNotEnoughMemory ≠ statusOk := status_ne_ok _ (by decide)
theorem lowerLayerError_ne : kenningProtocolStatusLowerLayerError ≠ statusOk :=
  status_ne_ok _ (by decide)
theorem invalidMessageType_ne : kenningProtocolStatusInvalidMessageType ≠ statusOk :=
  status_ne_ok _ (by decide)
theorem msgTooBig_ne : kenningProtocolStatusMsgTooBig ≠ statusOk := status_ne_ok _ (by decide)
theorem flowControlError_ne : kenningProtocolStatusFlowControlError ≠ statusOk :=
  status_ne_ok _ (by decide)
theorem kenningProtocolTimeout_ne : kenningProtocolStatusTimeout ≠ statusOk :=
  status_ne_ok _ (by decide)

attribute [simp] notEnoughMemory_ne lowerLayerError_ne invalidMessageType_ne msgTooBig_ne
  flowControlError_ne kenningProtocolTimeout_ne

end KenningRuntime

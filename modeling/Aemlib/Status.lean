import Mathlib.Data.UInt

/-!
# Status words (`include/aemlib/status.h`)

A status is one `uint32_t`: the layer in the high half, the code in the low half. The library
builds its own with `mkStatus`, but a transport callback may hand back any word at all, so a
status stays a `UInt32` and the tests on it are the source's: the whole word against
`statusOk`, the low half against `WOULD_BLOCK` or `BUFFER_TOO_SMALL`.
-/

namespace Aemlib

abbrev Status := UInt32

inductive StatusLayer where
  | general
  | system
  | io
  | protocol
  | user
  deriving DecidableEq, Repr

inductive StatusCode where
  | ok
  | unknown
  | invalidArg
  | notInitialized
  | outOfMemory
  | bufferTooSmall
  | notSupported
  | stateInvalid
  | wouldBlock
  | internal
  | closed
  | io
  | timeout
  | connect
  | protocol
  | malformed
  | unsupported
  | unexpected
  | unavailable
  deriving DecidableEq, Repr

def StatusLayer.val : StatusLayer → UInt32
  | .general => 0x0001
  | .system => 0x0002
  | .io => 0x0003
  | .protocol => 0x0004
  | .user => 0x00FF

def StatusCode.val : StatusCode → UInt32
  | .ok => 0
  | .unknown => 1
  | .invalidArg => 2
  | .notInitialized => 3
  | .outOfMemory => 4
  | .bufferTooSmall => 5
  | .notSupported => 6
  | .stateInvalid => 7
  | .wouldBlock => 8
  | .internal => 9
  | .closed => 10
  | .io => 11
  | .timeout => 12
  | .connect => 13
  | .protocol => 14
  | .malformed => 15
  | .unsupported => 16
  | .unexpected => 17
  | .unavailable => 18

def mkStatus (layer : StatusLayer) (code : StatusCode) : Status :=
  ((layer.val &&& 0xFFFF) <<< 16) ||| (code.val &&& 0xFFFF)

def statusCode (status : Status) : UInt32 := status &&& 0xFFFF

def statusOk : Status := mkStatus .general .ok

/-- `AEMLIB_STATUS_CODE(status) == AEMLIB_CODE_WOULD_BLOCK`, whatever the layer. -/
def WouldBlock (status : Status) : Prop := statusCode status = StatusCode.wouldBlock.val

/-- `AEMLIB_STATUS_CODE(status) == AEMLIB_CODE_BUFFER_TOO_SMALL`, whatever the layer. -/
def TooSmall (status : Status) : Prop := statusCode status = StatusCode.bufferTooSmall.val

/-- A status that is neither OK nor "try again": the test both readers and both writers make. -/
def HardError (status : Status) : Prop := status ≠ statusOk ∧ ¬ WouldBlock status

instance (status : Status) : Decidable (WouldBlock status) :=
  inferInstanceAs (Decidable (_ = _))

instance (status : Status) : Decidable (TooSmall status) :=
  inferInstanceAs (Decidable (_ = _))

instance (status : Status) : Decidable (HardError status) :=
  inferInstanceAs (Decidable (_ ∧ _))

/-- The status every encoder and decoder reports when its buffer ends too early. -/
def bufferTooSmall : Status := mkStatus .protocol .bufferTooSmall

/-- The status of a packet that breaks the framing rules. -/
def protocolError : Status := mkStatus .protocol .protocol

def invalidArg : Status := mkStatus .general .invalidArg

/-- The status of a send that has to wait for staged bytes. -/
def ioWouldBlock : Status := mkStatus .io .wouldBlock

/-- The status of a call that the current state does not allow. -/
def stateInvalid : Status := mkStatus .general .stateInvalid

theorem not_wouldBlock_ok : ¬ WouldBlock statusOk := by decide

theorem tooSmall_bufferTooSmall : TooSmall bufferTooSmall := by decide

theorem not_tooSmall_protocolError : ¬ TooSmall protocolError := by decide

theorem WouldBlock.ne_ok {status : Status} (h : WouldBlock status) : status ≠ statusOk := by
  rintro rfl
  exact not_wouldBlock_ok h

theorem not_hardError_ok : ¬ HardError statusOk := fun h => h.1 rfl

/-- What is not a hard error is OK or asks to try again. -/
theorem not_hardError_iff {status : Status} :
    ¬ HardError status ↔ status = statusOk ∨ WouldBlock status := by
  unfold HardError
  by_cases h : status = statusOk <;> simp [h]

end Aemlib

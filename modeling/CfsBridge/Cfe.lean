import CfsBridge.Bytes
import CfsBridge.Ieee
import Mathlib.Tactic

/-!
# The cFE interface

What the flight applications see of the core Flight Executive: message headers
of fixed size, the message services that write and read them, software bus
buffers, and the calls an application makes. The executive itself is not part
of the repository, so its services are parameters with their documented laws.
-/
namespace CfsBridge.Cfe
open Bytes
open Ieee (Binary32)

/-- A `CFE_MSG_CommandHeader_t`: primary header, function code, checksum. -/
abbrev CmdHeader := { bytes : Bytes // bytes.length = 8 }

/-- A `CFE_MSG_TelemetryHeader_t`: primary header, time, four spare bytes. -/
abbrev TlmHeader := { bytes : Bytes // bytes.length = 16 }

structure SysTime where
  seconds : UInt32
  subseconds : UInt32

/-- The message services. `msgInit` clears a message and sets its ID and size. -/
structure Services where
  msgInitCmd (mid size : ℕ) : CmdHeader
  msgInitTlm (mid size : ℕ) : TlmHeader
  setFcnCode (header : CmdHeader) (fcnCode : ℕ) : CmdHeader
  timeStampMsg (now : SysTime) (header : TlmHeader) : TlmHeader
  getMsgId (msg : Bytes) : ℕ
  getFcnCode (msg : Bytes) : ℕ

/-- The bits of a message ID that mark a command with a secondary header. -/
def IsCommand (mid : ℕ) : Prop := mid / 2048 % 4 = 3

instance (mid : ℕ) : Decidable (IsCommand mid) := inferInstanceAs (Decidable (_ = _))

/-- What the message services promise: the ID is the first word, and the
function code of a command is the low seven bits of byte 6. -/
structure Services.Documented (cfe : Services) : Prop where
  msgInitCmd_mid : ∀ {mid : ℕ} (size : ℕ), mid < 65536 →
    (cfe.msgInitCmd mid size).val.take 2 = beBytes 2 mid
  msgInitTlm_mid : ∀ {mid : ℕ} (size : ℕ), mid < 65536 →
    (cfe.msgInitTlm mid size).val.take 2 = beBytes 2 mid
  setFcnCode_mid : ∀ (header : CmdHeader) (fcnCode : ℕ),
    (cfe.setFcnCode header fcnCode).val.take 2 = header.val.take 2
  setFcnCode_code : ∀ (header : CmdHeader) {fcnCode : ℕ}, fcnCode < 128 →
    ((cfe.setFcnCode header fcnCode).val.getD 6 0).toNat % 128 = fcnCode
  timeStampMsg_mid : ∀ (now : SysTime) (header : TlmHeader),
    (cfe.timeStampMsg now header).val.take 2 = header.val.take 2
  getMsgId_eq : ∀ {msg : Bytes}, 2 ≤ msg.length → cfe.getMsgId msg = ofBE (msg.take 2)
  getFcnCode_eq : ∀ {msg : Bytes}, 8 ≤ msg.length → IsCommand (ofBE (msg.take 2)) →
    cfe.getFcnCode msg = (msg.getD 6 0).toNat % 128

/-- A software bus buffer with the message it holds. The buffer is longer than
the message; what lies behind the message is left over from earlier ones. -/
structure SbBuffer where
  bytes : Bytes
  size : ℕ
  size_ge : 8 ≤ size
  size_le : size ≤ bytes.length
  length_ge : 12 ≤ bytes.length

def SbBuffer.message (buffer : SbBuffer) : Bytes := buffer.bytes.take buffer.size

@[simp] theorem SbBuffer.message_length (buffer : SbBuffer) : buffer.message.length = buffer.size := by
  rw [message, List.length_take, min_eq_left buffer.size_le]

/-! ### Calls -/

inductive EventType
  | information
  | error
  | critical
  deriving DecidableEq, Repr

/-- An argument of a format string. -/
inductive Arg
  | float (value : Binary32)
  | uint (n : ℕ)
  | status (rc : ℤ)
  deriving DecidableEq, Repr

/-- The calls that an application is observed by. -/
inductive Call
  | evsRegister
  | createPipe (depth : ℕ) (name : String)
  | subscribe (mid pipe : ℕ)
  | receiveBuffer (pipe : ℕ)
  | transmitMsg (msg : Bytes)
  | sendEvent (eid : ℕ) (type : EventType) (format : String) (args : List Arg)
  | osPrintf (format : String) (args : List Arg)
  | writeToSysLog (format : String) (args : List Arg)
  | exitApp (runStatus : UInt32)
  deriving DecidableEq, Repr

namespace Call

/-- The initialisation calls that can fail. -/
def isInit : Call → Bool
  | .evsRegister => true
  | .createPipe _ _ => true
  | .subscribe _ _ => true
  | _ => false

/-- The calls with an effect outside the application: bus traffic and critical events. -/
def isAction : Call → Bool
  | .transmitMsg _ => true
  | .sendEvent _ .critical _ _ => true
  | _ => false

end Call

/-! ### Status codes -/

def cfeSuccess : ℤ := 0

def appRun : UInt32 := 1

def appError : UInt32 := 3

/-- One `CFE_ES_RunLoop` call: its answer and what it leaves in the run status.
It answers true only while the status is `appRun`. -/
structure RunLoop where
  answer : UInt32 → Bool × UInt32
  running : ∀ status, (answer status).1 = true → status = appRun ∧ (answer status).2 = appRun

/-- The answer when nobody asks the application to stop. -/
def RunLoop.plain : RunLoop where
  answer status := (decide (status = appRun), status)
  running _ h := ⟨of_decide_eq_true h, of_decide_eq_true h⟩

/-! ### Host byte order -/

/-- `ntohl` on a little-endian host. -/
def ntohl (netVal : BitVec 32) : BitVec 32 := BitVec.ofNat 32 (ofBE (leBytes 4 netVal.toNat))

/-- `NetworkToHostFloat`: two `memcpy` calls around `ntohl`. -/
def networkToHostFloat (src : Bytes) : Binary32 :=
  let netVal := BitVec.ofNat 32 (ofLE (src.take 4))
  let hostVal := ntohl netVal
  hostVal

theorem leBytes_ofLE {w : ℕ} {bs : Bytes} (h : bs.length = w) : leBytes w (ofLE bs) = bs := by
  rw [leBytes, ofLE, beBytes_ofBE_of_length (by rw [List.length_reverse, h]), List.reverse_reverse]

/-- The handler reads its four bytes as a big-endian word. -/
theorem networkToHostFloat_eq {src : Bytes} (h : 4 ≤ src.length) :
    networkToHostFloat src = BitVec.ofNat 32 (ofBE (src.take 4)) := by
  have hlen : (src.take 4).length = 4 := by rw [List.length_take]; omega
  have hlt : ofLE (src.take 4) < 2 ^ 32 := by simpa [hlen] using ofLE_lt (src.take 4)
  simp only [networkToHostFloat, ntohl]
  rw [BitVec.toNat_ofNat, Nat.mod_eq_of_lt hlt, leBytes_ofLE hlen]

/-! ### A message library -/

/-- Overwrite one byte. -/
def CmdHeader.setByte (header : CmdHeader) (i : ℕ) (b : UInt8) : CmdHeader :=
  ⟨header.val.set i b, by rw [List.length_set, header.property]⟩

/-- The first six bytes that `CFE_MSG_Init` writes: ID, standalone flags, length field. -/
def initPrimary (mid size : ℕ) : Bytes := beBytes 2 mid ++ [0xC0, 0] ++ beBytes 2 (size - 7)

theorem initPrimary_length (mid size : ℕ) : (initPrimary mid size).length = 6 := by
  simp [initPrimary]

/-- The services over CCSDS version 1 headers. -/
def ccsdsV1 : Services where
  msgInitCmd mid size := ⟨initPrimary mid size ++ [0, 0], by simp [initPrimary_length]⟩
  msgInitTlm mid size := ⟨initPrimary mid size ++ List.replicate 10 0, by simp [initPrimary_length]⟩
  setFcnCode header fcnCode := header.setByte 6 (UInt8.ofNat (fcnCode % 128))
  timeStampMsg now header :=
    ⟨header.val.take 6 ++ beBytes 4 now.seconds.toNat ++ beBytes 2 (now.subseconds.toNat / 65536) ++
      header.val.drop 12, by simp [header.property]⟩
  getMsgId msg := ofBE (msg.take 2)
  getFcnCode msg := if IsCommand (ofBE (msg.take 2)) then (msg.getD 6 0).toNat % 128 else 0

theorem ccsdsV1_documented : ccsdsV1.Documented where
  msgInitCmd_mid size _ := by simp [ccsdsV1, initPrimary]
  msgInitTlm_mid size _ := by simp [ccsdsV1, initPrimary]
  setFcnCode_mid header fcnCode := by
    simp [ccsdsV1, CmdHeader.setByte, List.take_set_of_le]
  setFcnCode_code header fcnCode h := by
    have hlen := header.property
    simp [ccsdsV1, CmdHeader.setByte, hlen]
    omega
  timeStampMsg_mid now header := by
    have hlen := header.property
    simp [ccsdsV1, List.take_append, List.take_take, hlen]
  getMsgId_eq _ := rfl
  getFcnCode_eq _ h := if_pos h

end CfsBridge.Cfe

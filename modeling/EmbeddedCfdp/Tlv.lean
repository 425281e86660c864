import EmbeddedCfdp.Common
import EmbeddedCfdp.Endian

/-!
# LV and TLV codecs (`cfdp_tlv.h`, `cfdp_tlv.c`)

The functions as the source computes them.  A destination buffer is an offset into
the object a `Writer` fills, or `none` for a null pointer; an out parameter is
`none` for a null pointer, or `some` of what it points at, and is returned with its
new contents.
-/

namespace EmbeddedCfdp

open CMemory

def CFDP_LV_HEADER_LEN : Nat := 1
def CFDP_TLV_HEADER_LEN : Nat := 2

abbrev TlvType := CEnum
def CFDP_TLV_FILESTORE_REQUEST : TlvType := 0x00
def CFDP_TLV_FILESTORE_RESPONSE : TlvType := 0x01
def CFDP_TLV_FAULT_HANDLER_OVERRIDE : TlvType := 0x04
def CFDP_TLV_ENTITY_ID : TlvType := 0x06

abbrev FilestoreAction := CEnum
def CFDP_FS_ACTION_RENAME_FILE : FilestoreAction := 0x2
def CFDP_FS_ACTION_APPEND_FILE : FilestoreAction := 0x3
def CFDP_FS_ACTION_REPLACE_FILE : FilestoreAction := 0x4
def CFDP_FS_ACTION_DENY_DIRECTORY : FilestoreAction := 0x8

abbrev FilestoreStatus := CEnum

abbrev FaultHandlerCode := CEnum
def CFDP_HANDLER_NOTICE_OF_CANCELLATION : FaultHandlerCode := 0x1
def CFDP_HANDLER_ABANDON_TRANSACTION : FaultHandlerCode := 0x4

structure Tlv where
  type : UInt8
  length : UInt8
  value : Option Ptr
deriving Inhabited

structure FilestoreRequest where
  actionCode : FilestoreAction
  firstFilename : Option Ptr
  firstFilenameLen : UInt8
  secondFilename : Option Ptr
  secondFilenameLen : UInt8
deriving Inhabited

structure FilestoreResponse where
  actionCode : FilestoreAction
  statusCode : FilestoreStatus
  firstFilename : Option Ptr
  firstFilenameLen : UInt8
  secondFilename : Option Ptr
  secondFilenameLen : UInt8
  message : Option Ptr
  messageLen : UInt8
deriving Inhabited

variable {T : Target}

/-! ### Action codes -/

def filestoreActionHasSecondFilename (actionCode : FilestoreAction) : Bool :=
  actionCode = CFDP_FS_ACTION_RENAME_FILE ||
    actionCode = CFDP_FS_ACTION_APPEND_FILE ||
    actionCode = CFDP_FS_ACTION_REPLACE_FILE

/-- Rename, Append and Replace are the actions that name a second file. -/
def NamesSecondFile (actionCode : FilestoreAction) : Prop :=
  actionCode ∈ [CFDP_FS_ACTION_RENAME_FILE, CFDP_FS_ACTION_APPEND_FILE,
    CFDP_FS_ACTION_REPLACE_FILE]

instance (actionCode : FilestoreAction) : Decidable (NamesSecondFile actionCode) :=
  inferInstanceAs (Decidable (_ ∈ _))

theorem filestoreActionHasSecondFilename_iff {actionCode : FilestoreAction} :
    filestoreActionHasSecondFilename actionCode = true ↔ NamesSecondFile actionCode := by
  simp [filestoreActionHasSecondFilename, NamesSecondFile, or_assoc]

theorem filestoreActionHasSecondFilename_eq (actionCode : FilestoreAction) :
    filestoreActionHasSecondFilename actionCode = decide (NamesSecondFile actionCode) :=
  Bool.eq_iff_iff.mpr (filestoreActionHasSecondFilename_iff.trans decide_eq_true_iff.symm)

def filestoreActionValid (actionCode : FilestoreAction) : Bool :=
  actionCode ≤ CFDP_FS_ACTION_DENY_DIRECTORY

/-- Reads the first value octet, so the value must not be null or empty. -/
def filestoreTlvAction (tlv : Tlv) : Except Fault FilestoreAction := do
  let value ← deref tlv.value
  let octet ← value.load 0
  return ((octet >>> 4) &&& 0xF).toUInt32

/-! ### LV objects -/

def lvSerialize (value : Option Ptr) (valueLen : UInt8) (buf : Option Nat) (bufLen : Size T) :
    Writer (Size T) :=
  match buf with
  | none => return sz 0
  | some buf => do
      if (value.isNone ∧ valueLen > 0) ∨ bufLen < sz valueLen.toNat + sz CFDP_LV_HEADER_LEN then
        return sz 0
      store buf valueLen
      if valueLen > 0 then
        memcpy (buf + CFDP_LV_HEADER_LEN) value valueLen.toNat
      return sz valueLen.toNat + sz CFDP_LV_HEADER_LEN

def lvDeserialize (buf : Option Ptr) (bufLen : Size T) (value : Option (Option Ptr))
    (valueLen : Option UInt8) :
    Except Fault (Size T × Option (Option Ptr) × Option UInt8) :=
  match buf, value, valueLen with
  | some buf, some _, some _ => do
      if bufLen < sz CFDP_LV_HEADER_LEN then return (sz 0, value, valueLen)
      let len ← buf.load 0
      if bufLen < sz len.toNat + sz CFDP_LV_HEADER_LEN then return (sz 0, value, valueLen)
      return (sz len.toNat + sz CFDP_LV_HEADER_LEN,
        -- an empty value is reported as a null pointer
        some (if len > 0 then some (buf.add CFDP_LV_HEADER_LEN) else none), some len)
  | _, _, _ => return (sz 0, value, valueLen)

/-! ### TLV objects -/

def tlvSerialize (tlv : Option Tlv) (buf : Option Nat) (bufLen : Size T) : Writer (Size T) :=
  match tlv, buf with
  | some tlv, some buf => do
      if (tlv.value.isNone ∧ tlv.length > 0) ∨
          bufLen < sz tlv.length.toNat + sz CFDP_TLV_HEADER_LEN then
        return sz 0
      store buf tlv.type
      store (buf + 1) tlv.length
      if tlv.length > 0 then
        memcpy (buf + CFDP_TLV_HEADER_LEN) tlv.value tlv.length.toNat
      return sz tlv.length.toNat + sz CFDP_TLV_HEADER_LEN
  | _, _ => return sz 0

def tlvDeserialize (buf : Option Ptr) (bufLen : Size T) (tlv : Option Tlv) :
    Except Fault (Size T × Option Tlv) :=
  match buf, tlv with
  | some buf, some _ => do
      if bufLen < sz CFDP_TLV_HEADER_LEN then return (sz 0, tlv)
      let length ← buf.load 1
      if bufLen < sz length.toNat + sz CFDP_TLV_HEADER_LEN then return (sz 0, tlv)
      let type ← buf.load 0
      return (sz length.toNat + sz CFDP_TLV_HEADER_LEN,
        some ⟨type, length, if length > 0 then some (buf.add CFDP_TLV_HEADER_LEN) else none⟩)
  | _, _ => return (sz 0, tlv)

/-! ### Entity ID TLV -/

def entityIdTlvSerialize (entityId : UInt64) (idLen : UInt8) (buf : Option Nat)
    (bufLen : Size T) : Writer (Size T) :=
  match buf with
  | none => return sz 0
  | some buf => do
      if idLen < CFDP_ID_LEN_MIN ∨ idLen > CFDP_ID_LEN_MAX ∨
          bufLen < sz idLen.toNat + sz CFDP_TLV_HEADER_LEN then
        return sz 0
      store buf CFDP_TLV_ENTITY_ID.toUInt8
      store (buf + 1) idLen
      writeUint (buf + CFDP_TLV_HEADER_LEN) entityId idLen
      return sz idLen.toNat + sz CFDP_TLV_HEADER_LEN

/-- The local `tlv` starts out uninitialised; it is read only once it is decoded. -/
def entityIdTlvDeserialize (buf : Option Ptr) (bufLen : Size T) (entityId : Option UInt64)
    (idLen : Option UInt8) : Except Fault (Size T × Option UInt64 × Option UInt8) :=
  match entityId, idLen with
  | some _, some _ => do
      let (n, tlv) ← tlvDeserialize buf bufLen (some default)
      let tlv := tlv.getD default
      if n = sz 0 ∨ tlv.type ≠ CFDP_TLV_ENTITY_ID.toUInt8 ∨ tlv.length < CFDP_ID_LEN_MIN ∨
          tlv.length > CFDP_ID_LEN_MAX then
        return (sz 0, entityId, idLen)
      let id ← readUint (← deref tlv.value) tlv.length
      return (sz tlv.length.toNat + sz CFDP_TLV_HEADER_LEN, some id, some tlv.length)
  | _, _ => return (sz 0, entityId, idLen)

/-! ### Fault Handler Override TLV -/

def faultConditionValid (conditionCode : ConditionCode) : Bool :=
  CFDP_COND_POSITIVE_ACK_LIMIT_REACHED ≤ conditionCode &&
    conditionCode ≤ CFDP_COND_UNSUPPORTED_CHECKSUM_TYPE

def faultHandlerValid (handlerCode : FaultHandlerCode) : Bool :=
  CFDP_HANDLER_NOTICE_OF_CANCELLATION ≤ handlerCode &&
    handlerCode ≤ CFDP_HANDLER_ABANDON_TRANSACTION

def faultHandlerTlvSerialize (conditionCode : ConditionCode) (handlerCode : FaultHandlerCode)
    (buf : Option Nat) (bufLen : Size T) : Writer (Size T) :=
  match buf with
  | none => return sz 0
  | some buf => do
      if bufLen < sz CFDP_TLV_HEADER_LEN + sz 1 ∨ ¬ faultConditionValid conditionCode ∨
          ¬ faultHandlerValid handlerCode then
        return sz 0
      store buf CFDP_TLV_FAULT_HANDLER_OVERRIDE.toUInt8
      store (buf + 1) 1
      store (buf + 2)
        (((conditionCode.toUInt8 &&& 0xF) <<< 4) ||| (handlerCode.toUInt8 &&& 0xF))
      return sz CFDP_TLV_HEADER_LEN + sz 1

def faultHandlerTlvDeserialize (buf : Option Ptr) (bufLen : Size T)
    (conditionCode : Option ConditionCode) (handlerCode : Option FaultHandlerCode) :
    Except Fault (Size T × Option ConditionCode × Option FaultHandlerCode) :=
  match conditionCode, handlerCode with
  | some _, some _ => do
      let (n, tlv) ← tlvDeserialize buf bufLen (some default)
      let tlv := tlv.getD default
      if n = sz 0 ∨ tlv.type ≠ CFDP_TLV_FAULT_HANDLER_OVERRIDE.toUInt8 ∨ tlv.length ≠ 1 then
        return (sz 0, conditionCode, handlerCode)
      let value ← deref tlv.value
      let octet ← value.load 0
      let condition : ConditionCode := ((octet >>> 4) &&& 0xF).toUInt32
      let handler : FaultHandlerCode := (octet &&& 0xF).toUInt32
      if ¬ faultConditionValid condition ∨ ¬ faultHandlerValid handler then
        return (sz 0, conditionCode, handlerCode)
      return (sz CFDP_TLV_HEADER_LEN + sz 1, some condition, some handler)
  | _, _ => return (sz 0, conditionCode, handlerCode)

/-! ### Filestore TLVs -/

/-- `buf` is never null here: the callers pass an address inside their own buffer. -/
def filestoreNamesSerialize (first : Option Ptr) (firstLen : UInt8) (second : Option Ptr)
    (secondLen : UInt8) (hasSecond : Bool) (buf : Nat) (bufLen : Size T) :
    Writer (Size T) := do
  let pos ← lvSerialize first firstLen (some buf) bufLen
  if pos = sz 0 then return sz 0
  if hasSecond then
    let n ← lvSerialize second secondLen (some (buf + pos.toNat)) (← Size.subW bufLen pos)
    if n = sz 0 then return sz 0
    return pos + n
  else
    return pos

/-- The out parameters are the two name fields of the caller's structure. -/
def filestoreNamesDeserialize (buf : Ptr) (bufLen : Size T) (hasSecond : Bool)
    (first : Option Ptr) (firstLen : UInt8) (second : Option Ptr) (secondLen : UInt8) :
    Except Fault (Size T × (Option Ptr × UInt8) × (Option Ptr × UInt8)) := do
  let (pos, firstOut, firstLenOut) ← lvDeserialize (some buf) bufLen (some first) (some firstLen)
  let firstField := (firstOut.getD first, firstLenOut.getD firstLen)
  if pos = sz 0 then return (sz 0, firstField, (second, secondLen))
  if hasSecond then
    let (n, secondOut, secondLenOut) ←
      lvDeserialize (some (buf.add pos.toNat)) (← Size.sub bufLen pos) (some second)
        (some secondLen)
    let secondField := (secondOut.getD second, secondLenOut.getD secondLen)
    if n = sz 0 then return (sz 0, firstField, secondField)
    return (pos + n, firstField, secondField)
  else
    return (pos, firstField, (second, secondLen))

def filestoreTlvFinish (buf : Nat) (type : TlvType) (tlvEnd : Size T) : Writer (Size T) := do
  let valueLen ← Size.subW tlvEnd (sz CFDP_TLV_HEADER_LEN)
  -- the octets of the value are in the buffer by now, those of the head are not
  if valueLen > sz 255 then return sz 0
  store buf type.toUInt8
  store (buf + 1) (UInt8.ofNat valueLen.toNat)
  return tlvEnd

def filestoreRequestTlvSerialize (req : Option FilestoreRequest) (buf : Option Nat)
    (bufLen : Size T) : Writer (Size T) :=
  match req, buf with
  | some req, some buf => do
      if bufLen < sz CFDP_TLV_HEADER_LEN + sz 1 ∨ ¬ filestoreActionValid req.actionCode then
        return sz 0
      let pos : Size T := sz CFDP_TLV_HEADER_LEN
      store (buf + pos.toNat) ((req.actionCode.toUInt8 &&& 0xF) <<< 4)
      let pos := pos + sz 1
      let n ← filestoreNamesSerialize req.firstFilename req.firstFilenameLen req.secondFilename
        req.secondFilenameLen (filestoreActionHasSecondFilename req.actionCode)
        (buf + pos.toNat) (← Size.subW bufLen pos)
      if n = sz 0 then return sz 0
      filestoreTlvFinish buf CFDP_TLV_FILESTORE_REQUEST (pos + n)
  | _, _ => return sz 0

def filestoreRequestTlvDeserialize (buf : Option Ptr) (bufLen : Size T)
    (req : Option FilestoreRequest) : Except Fault (Size T × Option FilestoreRequest) :=
  match req with
  | none => return (sz 0, req)
  | some _ => do
      let (n, tlv) ← tlvDeserialize buf bufLen (some default)
      let tlv := tlv.getD default
      if n = sz 0 ∨ tlv.type ≠ CFDP_TLV_FILESTORE_REQUEST.toUInt8 ∨ tlv.length < 1 then
        return (sz 0, req)
      let action ← filestoreTlvAction tlv
      if ¬ filestoreActionValid action then return (sz 0, req)
      let value ← deref tlv.value
      let (n, first, second) ← filestoreNamesDeserialize (value.add 1)
        (← Size.sub (sz tlv.length.toNat : Size T) (sz 1))
        (filestoreActionHasSecondFilename action) none 0 none 0
      let req : FilestoreRequest := ⟨action, first.1, first.2, second.1, second.2⟩
      -- the names have to fill the value
      if n = sz 0 ∨ n + sz 1 ≠ sz tlv.length.toNat then return (sz 0, some req)
      return (sz tlv.length.toNat + sz CFDP_TLV_HEADER_LEN, some req)

def filestoreResponseTlvSerialize (resp : Option FilestoreResponse) (buf : Option Nat)
    (bufLen : Size T) : Writer (Size T) :=
  match resp, buf with
  | some resp, some buf => do
      if bufLen < sz CFDP_TLV_HEADER_LEN + sz 1 ∨ ¬ filestoreActionValid resp.actionCode then
        return sz 0
      let pos : Size T := sz CFDP_TLV_HEADER_LEN
      store (buf + pos.toNat)
        (((resp.actionCode.toUInt8 &&& 0xF) <<< 4) ||| (resp.statusCode.toUInt8 &&& 0xF))
      let pos := pos + sz 1
      let n ← filestoreNamesSerialize resp.firstFilename resp.firstFilenameLen
        resp.secondFilename resp.secondFilenameLen
        (filestoreActionHasSecondFilename resp.actionCode)
        (buf + pos.toNat) (← Size.subW bufLen pos)
      if n = sz 0 then return sz 0
      let pos := pos + n
      let n ← lvSerialize resp.message resp.messageLen (some (buf + pos.toNat))
        (← Size.subW bufLen pos)
      if n = sz 0 then return sz 0
      filestoreTlvFinish buf CFDP_TLV_FILESTORE_RESPONSE (pos + n)
  | _, _ => return sz 0

def filestoreResponseTlvDeserialize (buf : Option Ptr) (bufLen : Size T)
    (resp : Option FilestoreResponse) : Except Fault (Size T × Option FilestoreResponse) :=
  match resp with
  | none => return (sz 0, resp)
  | some _ => do
      let (n, tlv) ← tlvDeserialize buf bufLen (some default)
      let tlv := tlv.getD default
      if n = sz 0 ∨ tlv.type ≠ CFDP_TLV_FILESTORE_RESPONSE.toUInt8 ∨ tlv.length < 1 then
        return (sz 0, resp)
      let action ← filestoreTlvAction tlv
      if ¬ filestoreActionValid action then return (sz 0, resp)
      let value ← deref tlv.value
      let octet ← value.load 0
      let status : FilestoreStatus := (octet &&& 0xF).toUInt32
      let (pos, first, second) ← filestoreNamesDeserialize (value.add 1)
        (← Size.sub (sz tlv.length.toNat : Size T) (sz 1))
        (filestoreActionHasSecondFilename action) none 0 none 0
      let resp : FilestoreResponse :=
        ⟨action, status, first.1, first.2, second.1, second.2, none, 0⟩
      if pos = sz 0 then return (sz 0, some resp)
      let (n, message, messageLen) ← lvDeserialize (some (value.add (sz 1 + pos).toNat))
        (← Size.sub (← Size.sub (sz tlv.length.toNat : Size T) (sz 1)) pos)
        (some resp.message) (some resp.messageLen)
      let resp : FilestoreResponse :=
        { resp with message := message.getD none, messageLen := messageLen.getD 0 }
      -- the names and the message have to fill the value
      if n = sz 0 ∨ pos + n + sz 1 ≠ sz tlv.length.toNat then return (sz 0, some resp)
      return (sz tlv.length.toNat + sz CFDP_TLV_HEADER_LEN, some resp)

end EmbeddedCfdp

import EmbeddedCfdp.Tlv

/-!
# File Directive codecs (`cfdp_directive.h`, `cfdp_directive.c`)

The functions as the source computes them, in the conventions of `Tlv`.  The
capacity of a NAK is the build-time constant `CFDP_NAK_MAX_SEGMENT_REQUESTS`.
-/

namespace EmbeddedCfdp

open CMemory

def CFDP_ACK_SUBTYPE_FINISHED : UInt8 := 1
def CFDP_ACK_SUBTYPE_OTHER : UInt8 := 0

structure EofPdu where
  conditionCode : ConditionCode
  fileChecksum : UInt32
  fileSize : UInt64
  faultLocationEntityId : UInt64
  faultLocationLen : UInt8
deriving Inhabited, DecidableEq, Repr

structure FinishedPdu where
  conditionCode : ConditionCode
  deliveryCode : DeliveryCode
  fileStatus : FileStatus
  filestoreResponses : Option Ptr
  filestoreResponsesLen : UInt16
  faultLocationEntityId : UInt64
  faultLocationLen : UInt8
deriving Inhabited

structure AckPdu where
  ackDirectiveCode : DirectiveCode
  conditionCode : ConditionCode
  transactionStatus : TransactionStatus
deriving Inhabited, DecidableEq, Repr

structure MetadataPdu where
  closureRequested : Bool
  checksumType : ChecksumType
  fileSize : UInt64
  sourceFilename : Option Ptr
  sourceFilenameLen : UInt8
  destinationFilename : Option Ptr
  destinationFilenameLen : UInt8
  options : Option Ptr
  optionsLen : UInt16
deriving Inhabited

structure SegmentRequest where
  startOffset : UInt64
  endOffset : UInt64
deriving Inhabited, DecidableEq, Repr

/-- `CFDP_NAK_MAX_SEGMENT_REQUESTS`.  It sizes `cfdp_nak_pdu_t`, an object of
    more octets than the longest encoding, so that encoding's size is a `size_t`. -/
structure NakCapacity (T : Target) where
  max : Nat
  fits : 17 + 16 * max < 2 ^ T.sizeBits

structure NakPdu {T : Target} (N : NakCapacity T) where
  startOfScope : UInt64
  endOfScope : UInt64
  segmentRequests : Vector SegmentRequest N.max
  segmentRequestCount : Size T
deriving Inhabited

variable {T : Target}

/-! ### EOF -/

def eofSerialize (eof : Option EofPdu) (largeFileFlag : LargeFileFlag) (buf : Option Nat)
    (bufLen : Size T) : Writer (Size T) :=
  match eof, buf with
  | some eof, some buf => do
      let withFaultLocation := eof.conditionCode ≠ CFDP_COND_NO_ERROR
      if withFaultLocation ∧ eof.faultLocationLen = 0 then return sz 0
      let fs := fileSizeOctets largeFileFlag
      let size : Size T := sz fs.toNat + sz 6
      if bufLen < size then return sz 0
      store buf CFDP_DIRECTIVE_EOF.toUInt8
      store (buf + 1) ((eof.conditionCode.toUInt8 &&& 0xF) <<< 4)
      writeUint (buf + 2) eof.fileChecksum.toUInt64 4
      writeUint (buf + 6) eof.fileSize fs
      if ¬ withFaultLocation then return size
      let n ← entityIdTlvSerialize eof.faultLocationEntityId eof.faultLocationLen
        (some (buf + size.toNat)) (← Size.subW bufLen size)
      if n = sz 0 then return sz 0
      return size + n
  | _, _ => return sz 0

def eofDeserialize (buf : Option Ptr) (bufLen : Size T) (largeFileFlag : LargeFileFlag)
    (eof : Option EofPdu) : Except Fault (Size T × Option EofPdu) :=
  match buf, eof with
  | some buf, some eof => do
      let fs := fileSizeOctets largeFileFlag
      let size : Size T := sz fs.toNat + sz 6
      if bufLen < size then return (sz 0, some eof)
      let code ← buf.load 0
      if code ≠ CFDP_DIRECTIVE_EOF.toUInt8 then return (sz 0, some eof)
      let octet ← buf.load 1
      let fileChecksum ← readUint (buf.add 2) 4
      let fileSize ← readUint (buf.add 6) fs
      let eof : EofPdu :=
        ⟨((octet >>> 4) &&& 0xF).toUInt32, fileChecksum.toUInt32, fileSize, 0, 0⟩
      if bufLen = size then return (size, some eof)
      -- whatever the condition code, octets that remain are taken for a fault location
      let (n, entityId, idLen) ← entityIdTlvDeserialize (some (buf.add size.toNat))
        (← Size.sub bufLen size) (some eof.faultLocationEntityId) (some eof.faultLocationLen)
      let eof := { eof with
        faultLocationEntityId := entityId.getD 0
        faultLocationLen := idLen.getD 0 }
      if n = sz 0 then return (sz 0, some eof)
      return (size + n, some eof)
  | _, _ => return (sz 0, eof)

/-! ### Finished -/

def faultLocationRequired (conditionCode : ConditionCode) : Bool :=
  conditionCode ≠ CFDP_COND_NO_ERROR && conditionCode ≠ CFDP_COND_UNSUPPORTED_CHECKSUM_TYPE

/-- All conditions but 'No error' and 'Unsupported checksum type' call for a fault location. -/
def CallsForFaultLocation (conditionCode : ConditionCode) : Prop :=
  conditionCode ∉ [CFDP_COND_NO_ERROR, CFDP_COND_UNSUPPORTED_CHECKSUM_TYPE]

instance (conditionCode : ConditionCode) : Decidable (CallsForFaultLocation conditionCode) :=
  inferInstanceAs (Decidable (_ ∉ _))

theorem faultLocationRequired_iff {conditionCode : ConditionCode} :
    faultLocationRequired conditionCode = true ↔ CallsForFaultLocation conditionCode := by
  simp [faultLocationRequired, CallsForFaultLocation]

def finishedSerialize (fin : Option FinishedPdu) (buf : Option Nat) (bufLen : Size T) :
    Writer (Size T) :=
  match fin, buf with
  | some fin, some buf => do
      if bufLen < sz 2 ∨ (fin.filestoreResponses.isNone ∧ fin.filestoreResponsesLen > 0) then
        return sz 0
      let withFaultLocation := faultLocationRequired fin.conditionCode
      if withFaultLocation ∧ fin.faultLocationLen = 0 then return sz 0
      let pos : Size T := sz 2
      if bufLen < pos + sz fin.filestoreResponsesLen.toNat then return sz 0
      store buf CFDP_DIRECTIVE_FINISHED.toUInt8
      store (buf + 1)
        (((fin.conditionCode.toUInt8 &&& 0xF) <<< 4) |||
          ((fin.deliveryCode.toUInt8 &&& 0x1) <<< 2) ||| (fin.fileStatus.toUInt8 &&& 0x3))
      if fin.filestoreResponsesLen > 0 then
        memcpy (buf + pos.toNat) fin.filestoreResponses fin.filestoreResponsesLen.toNat
      -- the copy is empty exactly when the length added here is zero
      let pos := pos + sz fin.filestoreResponsesLen.toNat
      if ¬ withFaultLocation then return pos
      let n ← entityIdTlvSerialize fin.faultLocationEntityId fin.faultLocationLen
        (some (buf + pos.toNat)) (← Size.subW bufLen pos)
      if n = sz 0 then return sz 0
      return pos + n
  | _, _ => return sz 0

/-- The loop of `cfdp_finished_parse_tlvs` at offset `pos`; `fuel` bounds the rounds. -/
def finishedParseTlvsLoop (buf : Ptr) (bufLen : Size T) :
    (fuel : Nat) → (pos : Size T) → FinishedPdu → Except Fault (Size T × FinishedPdu)
  | 0, _, _ => .error .unfinished
  | fuel + 1, pos, fin => do
      if ¬ pos < bufLen then return (pos, fin)
      let responsesStart : Size T := sz 2
      let (n, tlv) ←
        tlvDeserialize (some (buf.add pos.toNat)) (← Size.sub bufLen pos) (some default)
      let tlv := tlv.getD default
      if n = sz 0 then return (sz 0, fin)
      if tlv.type = CFDP_TLV_FILESTORE_RESPONSE.toUInt8 then
        -- no response may follow the fault location
        if fin.faultLocationLen > 0 then return (sz 0, fin)
        -- the span reaches from the first TLV to the end of this one
        let len ← Size.sub (pos + n) responsesStart
        let fin := { fin with
          filestoreResponses := some (buf.add responsesStart.toNat)
          filestoreResponsesLen := UInt16.ofNat len.toNat }
        finishedParseTlvsLoop buf bufLen fuel (pos + n) fin
      else if tlv.type = CFDP_TLV_ENTITY_ID.toUInt8 then
        -- a second Entity ID overwrites the first
        let (k, entityId, idLen) ← entityIdTlvDeserialize (some (buf.add pos.toNat))
          (← Size.sub bufLen pos) (some fin.faultLocationEntityId) (some fin.faultLocationLen)
        let fin := { fin with
          faultLocationEntityId := entityId.getD 0
          faultLocationLen := idLen.getD 0 }
        if k = sz 0 then return (sz 0, fin)
        finishedParseTlvsLoop buf bufLen fuel (pos + n) fin
      else return (sz 0, fin)

/-- Every round consumes at least two octets, so `bufLen` rounds and the final test
    of the loop condition suffice. -/
def finishedParseTlvs (buf : Ptr) (bufLen : Size T) (fin : FinishedPdu) :
    Except Fault (Size T × FinishedPdu) :=
  finishedParseTlvsLoop buf bufLen (bufLen.toNat + 1) (sz 2) fin

def finishedDeserialize (buf : Option Ptr) (bufLen : Size T) (fin : Option FinishedPdu) :
    Except Fault (Size T × Option FinishedPdu) :=
  match buf, fin with
  | some buf, some fin => do
      if bufLen < sz 2 then return (sz 0, some fin)
      let code ← buf.load 0
      if code ≠ CFDP_DIRECTIVE_FINISHED.toUInt8 then return (sz 0, some fin)
      let octet ← buf.load 1
      let fin : FinishedPdu :=
        ⟨((octet >>> 4) &&& 0xF).toUInt32, ((octet >>> 2) &&& 0x1).toUInt32,
          (octet &&& 0x3).toUInt32, none, 0, 0, 0⟩
      let (n, fin) ← finishedParseTlvs buf bufLen fin
      return (n, some fin)
  | _, _ => return (sz 0, fin)

/-! ### ACK -/

def ackDirectiveValid (ackDirectiveCode : DirectiveCode) : Bool :=
  ackDirectiveCode = CFDP_DIRECTIVE_EOF || ackDirectiveCode = CFDP_DIRECTIVE_FINISHED

def ackDirectiveSubtype (ackDirectiveCode : DirectiveCode) : UInt8 :=
  if ackDirectiveCode = CFDP_DIRECTIVE_FINISHED then CFDP_ACK_SUBTYPE_FINISHED
  else CFDP_ACK_SUBTYPE_OTHER

def ackSerialize (ack : Option AckPdu) (buf : Option Nat) (bufLen : Size T) :
    Writer (Size T) :=
  match ack, buf with
  | some ack, some buf => do
      if bufLen < sz 3 ∨ ¬ ackDirectiveValid ack.ackDirectiveCode then return sz 0
      store buf CFDP_DIRECTIVE_ACK.toUInt8
      store (buf + 1)
        (((ack.ackDirectiveCode.toUInt8 &&& 0xF) <<< 4) |||
          (ackDirectiveSubtype ack.ackDirectiveCode &&& 0xF))
      store (buf + 2)
        (((ack.conditionCode.toUInt8 &&& 0xF) <<< 4) |||
          (ack.transactionStatus.toUInt8 &&& 0x3))
      return sz 3
  | _, _ => return sz 0

def ackDeserialize (buf : Option Ptr) (bufLen : Size T) (ack : Option AckPdu) :
    Except Fault (Size T × Option AckPdu) :=
  match buf, ack with
  | some buf, some ack => do
      if bufLen < sz 3 then return (sz 0, some ack)
      let code ← buf.load 0
      if code ≠ CFDP_DIRECTIVE_ACK.toUInt8 then return (sz 0, some ack)
      let o1 ← buf.load 1
      let acknowledged : DirectiveCode := ((o1 >>> 4) &&& 0xF).toUInt32
      if ¬ ackDirectiveValid acknowledged ∨ (o1 &&& 0xF) ≠ ackDirectiveSubtype acknowledged then
        return (sz 0, some ack)
      let o2 ← buf.load 2
      return (sz 3, some ⟨acknowledged, ((o2 >>> 4) &&& 0xF).toUInt32, (o2 &&& 0x3).toUInt32⟩)
  | _, _ => return (sz 0, ack)

/-! ### Metadata -/

def metadataSerialize (md : Option MetadataPdu) (largeFileFlag : LargeFileFlag)
    (buf : Option Nat) (bufLen : Size T) : Writer (Size T) :=
  match md, buf with
  | some md, some buf => do
      if md.options.isNone ∧ md.optionsLen > 0 then return sz 0
      let fs := fileSizeOctets largeFileFlag
      let need : Size T := sz fs.toNat + sz md.sourceFilenameLen.toNat +
        sz md.destinationFilenameLen.toNat + sz md.optionsLen.toNat + sz 4
      if bufLen < need then return sz 0
      store buf CFDP_DIRECTIVE_METADATA.toUInt8
      store (buf + 1)
        (((if md.closureRequested then (1 : UInt8) else 0) <<< 6) |||
          (md.checksumType.toUInt8 &&& 0xF))
      let pos : Size T := sz 2
      writeUint (buf + pos.toNat) md.fileSize fs
      let pos := pos + sz fs.toNat
      let n ← lvSerialize md.sourceFilename md.sourceFilenameLen (some (buf + pos.toNat))
        (← Size.subW bufLen pos)
      if n = sz 0 then return sz 0
      let pos := pos + n
      let n ← lvSerialize md.destinationFilename md.destinationFilenameLen
        (some (buf + pos.toNat)) (← Size.subW bufLen pos)
      if n = sz 0 then return sz 0
      let pos := pos + n
      if md.optionsLen > 0 then
        memcpy (buf + pos.toNat) md.options md.optionsLen.toNat
        return pos + sz md.optionsLen.toNat
      else
        return pos
  | _, _ => return sz 0

def metadataDeserialize (buf : Option Ptr) (bufLen : Size T) (largeFileFlag : LargeFileFlag)
    (md : Option MetadataPdu) : Except Fault (Size T × Option MetadataPdu) :=
  match buf, md with
  | some buf, some md => do
      let fs := fileSizeOctets largeFileFlag
      if bufLen < sz fs.toNat + sz 2 then return (sz 0, some md)
      let code ← buf.load 0
      if code ≠ CFDP_DIRECTIVE_METADATA.toUInt8 then return (sz 0, some md)
      let octet ← buf.load 1
      let pos : Size T := sz 2
      let fileSize ← readUint (buf.add pos.toNat) fs
      let md := { md with
        closureRequested := ((octet >>> 6) &&& 0x1) ≠ 0
        checksumType := (octet &&& 0xF).toUInt32
        fileSize := fileSize }
      let pos := pos + sz fs.toNat
      let (n, value, len) ← lvDeserialize (some (buf.add pos.toNat)) (← Size.sub bufLen pos)
        (some md.sourceFilename) (some md.sourceFilenameLen)
      let md := { md with
        sourceFilename := value.getD none
        sourceFilenameLen := len.getD 0 }
      if n = sz 0 then return (sz 0, some md)
      let pos := pos + n
      let (n, value, len) ← lvDeserialize (some (buf.add pos.toNat)) (← Size.sub bufLen pos)
        (some md.destinationFilename) (some md.destinationFilenameLen)
      let md := { md with
        destinationFilename := value.getD none
        destinationFilenameLen := len.getD 0 }
      if n = sz 0 then return (sz 0, some md)
      let pos := pos + n
      -- all that remains is options; the cast cuts their length to sixteen bits
      let rest ← Size.sub bufLen pos
      return (bufLen, some { md with
        options := if bufLen > pos then some (buf.add pos.toNat) else none
        optionsLen := UInt16.ofNat rest.toNat })
  | _, _ => return (sz 0, md)

/-! ### NAK -/

variable {N : NakCapacity T}

/-- An element of an array that an index of type `size_t` may miss. -/
def arrayGet {α : Type} {n : Nat} (xs : Vector α n) (i : Nat) : Except Fault α :=
  if h : i < n then .ok xs[i] else .error .outOfBounds

def arraySet {α : Type} {n : Nat} (xs : Vector α n) (i : Nat) (x : α) :
    Except Fault (Vector α n) :=
  if h : i < n then .ok (xs.set i x) else .error .outOfBounds

/-- The loop of `cfdp_nak_serialize` at request `i`, with `left = count - i`. -/
def nakSerializeLoop (nak : NakPdu N) (buf : Nat) (fs : UInt8) :
    (left i : Nat) → (pos : Size T) → Writer (Size T)
  | 0, _, pos => return pos
  | left + 1, i, pos => do
      let request ← arrayGet nak.segmentRequests i
      writeUint (buf + pos.toNat) request.startOffset fs
      let pos := pos + sz fs.toNat
      writeUint (buf + pos.toNat) request.endOffset fs
      let pos := pos + sz fs.toNat
      nakSerializeLoop nak buf fs left (i + 1) pos

def nakSerialize (nak : Option (NakPdu N)) (largeFileFlag : LargeFileFlag) (buf : Option Nat)
    (bufLen : Size T) : Writer (Size T) :=
  match nak, buf with
  | some nak, some buf => do
      if nak.segmentRequestCount > sz N.max then return sz 0
      let fs := fileSizeOctets largeFileFlag
      let pair : Size T := sz 2 * sz fs.toNat
      let size := sz 1 + pair + nak.segmentRequestCount * pair
      if bufLen < size then return sz 0
      store buf CFDP_DIRECTIVE_NAK.toUInt8
      let pos : Size T := sz 1
      writeUint (buf + pos.toNat) nak.startOfScope fs
      let pos := pos + sz fs.toNat
      writeUint (buf + pos.toNat) nak.endOfScope fs
      let pos := pos + sz fs.toNat
      nakSerializeLoop nak buf fs nak.segmentRequestCount.toNat 0 pos
  | _, _ => return sz 0

/-- The loop of `cfdp_nak_parse_segment_requests` at request `i`, with
    `left = count - i`. -/
def nakParseLoop (buf : Ptr) (fs : UInt8) :
    (left i : Nat) → (pos : Size T) → NakPdu N → Except Fault (Size T × NakPdu N)
  | 0, _, pos, nak => return (pos, nak)
  | left + 1, i, pos, nak => do
      let startOffset ← readUint (buf.add pos.toNat) fs
      let pos := pos + sz fs.toNat
      let endOffset ← readUint (buf.add pos.toNat) fs
      let pos := pos + sz fs.toNat
      let requests ← arraySet nak.segmentRequests i ⟨startOffset, endOffset⟩
      nakParseLoop buf fs left (i + 1) pos { nak with
        segmentRequests := requests
        segmentRequestCount := nak.segmentRequestCount + sz 1 }

def nakParseSegmentRequests (buf : Ptr) (bufLen : Size T) (fs : UInt8) (nak : NakPdu N) :
    Except Fault (Size T × NakPdu N) :=
  let pair : Size T := sz 2 * sz fs.toNat
  let count := bufLen / pair
  -- what remains has to be whole pairs, at most as many as the array holds
  if bufLen % pair ≠ sz 0 ∨ count > sz N.max then return (sz 0, nak)
  else nakParseLoop buf fs count.toNat 0 (sz 0) { nak with segmentRequestCount := sz 0 }

def nakDeserialize (buf : Option Ptr) (bufLen : Size T) (largeFileFlag : LargeFileFlag)
    (nak : Option (NakPdu N)) : Except Fault (Size T × Option (NakPdu N)) :=
  match buf, nak with
  | some buf, some nak => do
      let fs := fileSizeOctets largeFileFlag
      let pair : Size T := sz 2 * sz fs.toNat
      if bufLen < sz 1 + pair then return (sz 0, some nak)
      let code ← buf.load 0
      if code ≠ CFDP_DIRECTIVE_NAK.toUInt8 then return (sz 0, some nak)
      let pos : Size T := sz 1
      let startOfScope ← readUint (buf.add pos.toNat) fs
      let pos := pos + sz fs.toNat
      let endOfScope ← readUint (buf.add pos.toNat) fs
      let pos := pos + sz fs.toNat
      let nak := { nak with startOfScope, endOfScope }
      let (n, nak) ←
        nakParseSegmentRequests (buf.add pos.toNat) (← Size.sub bufLen pos) fs nak
      -- 0 is an error only when there was something to parse
      if n = sz 0 ∧ bufLen ≠ pos then return (sz 0, some nak)
      return (pos + n, some nak)
  | _, _ => return (sz 0, nak)

/-! ### Prompt -/

def promptSerialize (response : PromptResponse) (buf : Option Nat) (bufLen : Size T) :
    Writer (Size T) :=
  match buf with
  | none => return sz 0
  | some buf => do
      if bufLen < sz 2 then return sz 0
      store buf CFDP_DIRECTIVE_PROMPT.toUInt8
      store (buf + 1) ((response.toUInt8 &&& 0x1) <<< 7)
      return sz 2

def promptDeserialize (buf : Option Ptr) (bufLen : Size T) (response : Option PromptResponse) :
    Except Fault (Size T × Option PromptResponse) :=
  match buf, response with
  | some buf, some _ => do
      if bufLen < sz 2 then return (sz 0, response)
      let code ← buf.load 0
      if code ≠ CFDP_DIRECTIVE_PROMPT.toUInt8 then return (sz 0, response)
      let octet ← buf.load 1
      return (sz 2, some ((octet >>> 7) &&& 0x1).toUInt32)
  | _, _ => return (sz 0, response)

/-! ### Keep Alive -/

def keepAliveSerialize (progress : UInt64) (largeFileFlag : LargeFileFlag) (buf : Option Nat)
    (bufLen : Size T) : Writer (Size T) :=
  match buf with
  | none => return sz 0
  | some buf => do
      let fs := fileSizeOctets largeFileFlag
      let size : Size T := sz fs.toNat + sz 1
      if bufLen < size then return sz 0
      store buf CFDP_DIRECTIVE_KEEP_ALIVE.toUInt8
      writeUint (buf + 1) progress fs
      return size

def keepAliveDeserialize (buf : Option Ptr) (bufLen : Size T) (largeFileFlag : LargeFileFlag)
    (progress : Option UInt64) : Except Fault (Size T × Option UInt64) :=
  match buf, progress with
  | some buf, some _ => do
      let fs := fileSizeOctets largeFileFlag
      let size : Size T := sz fs.toNat + sz 1
      if bufLen < size then return (sz 0, progress)
      let code ← buf.load 0
      if code ≠ CFDP_DIRECTIVE_KEEP_ALIVE.toUInt8 then return (sz 0, progress)
      let value ← readUint (buf.add 1) fs
      return (size, some value)
  | _, _ => return (sz 0, progress)

end EmbeddedCfdp

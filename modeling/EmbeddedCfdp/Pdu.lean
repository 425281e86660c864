import EmbeddedCfdp.Common
import EmbeddedCfdp.Endian
import EmbeddedCfdp.Crc

/-!
# Fixed header, PDU CRC and File Data codecs (`cfdp_pdu.h`, `cfdp_pdu.c`)

The functions as the source computes them, in the conventions of `Tlv`.
-/

namespace EmbeddedCfdp

open CMemory

structure PduHeader where
  version : UInt8
  pduType : PduType
  direction : Direction
  transmissionMode : TransmissionMode
  crcFlag : CrcFlag
  largeFileFlag : LargeFileFlag
  dataFieldLength : UInt16
  segmentationControl : SegCtrl
  segmentMetadataFlag : SegMetadataFlag
  entityIdLength : UInt8
  transactionSeqLength : UInt8
  sourceEntityId : UInt64
  transactionSeqNumber : UInt64
  destinationEntityId : UInt64
deriving Inhabited, DecidableEq, Repr

structure FileDataPdu (T : Target) where
  offset : UInt64
  fileData : Option Ptr
  fileDataLen : Size T
  recordContinuation : RecordContinuation
  segmentMetadata : Option Ptr
  segmentMetadataLen : UInt8
deriving Inhabited

variable {T : Target}

/-! ### Fixed header -/

def idLenValid (len : UInt8) : Bool := CFDP_ID_LEN_MIN ≤ len && len ≤ CFDP_ID_LEN_MAX

def pduHeaderSize (hdr : Option PduHeader) : Size T :=
  match hdr with
  | none => sz 0
  | some hdr =>
      if ¬ idLenValid hdr.entityIdLength ∨ ¬ idLenValid hdr.transactionSeqLength then sz 0
      else sz CFDP_PDU_HEADER_FIXED_LEN + sz (2 * hdr.entityIdLength.toNat) +
        sz hdr.transactionSeqLength.toNat

def packOctet0 (hdr : PduHeader) : UInt8 :=
  ((hdr.version &&& 0x7) <<< 5) ||| ((hdr.pduType.toUInt8 &&& 0x1) <<< 4) |||
    ((hdr.direction.toUInt8 &&& 0x1) <<< 3) |||
    ((hdr.transmissionMode.toUInt8 &&& 0x1) <<< 2) |||
    ((hdr.crcFlag.toUInt8 &&& 0x1) <<< 1) ||| (hdr.largeFileFlag.toUInt8 &&& 0x1)

/-- Both segment flags are always zero for File Directive PDUs. -/
def segmentFlagsMask (pduType : PduType) : UInt8 :=
  if pduType = CFDP_PDU_TYPE_FILE_DATA then 0x1 else 0x0

def packOctet3 (hdr : PduHeader) : UInt8 :=
  ((hdr.segmentationControl.toUInt8 &&& segmentFlagsMask hdr.pduType) <<< 7) |||
    (((hdr.entityIdLength - 1) &&& 0x7) <<< 4) |||
    ((hdr.segmentMetadataFlag.toUInt8 &&& segmentFlagsMask hdr.pduType) <<< 3) |||
    ((hdr.transactionSeqLength - 1) &&& 0x7)

def pduHeaderSerialize (hdr : Option PduHeader) (buf : Option Nat) (bufLen : Size T) :
    Writer (Size T) :=
  match hdr, buf with
  | some hdr, some buf => do
      if hdr.version ≠ CFDP_PROTOCOL_VERSION then return sz 0
      let size : Size T := pduHeaderSize (some hdr)
      if size = sz 0 ∨ bufLen < size then return sz 0
      store buf (packOctet0 hdr)
      writeUint (buf + 1) hdr.dataFieldLength.toUInt64 2
      store (buf + 3) (packOctet3 hdr)
      let pos : Size T := sz CFDP_PDU_HEADER_FIXED_LEN
      writeUint (buf + pos.toNat) hdr.sourceEntityId hdr.entityIdLength
      let pos := pos + sz hdr.entityIdLength.toNat
      writeUint (buf + pos.toNat) hdr.transactionSeqNumber hdr.transactionSeqLength
      let pos := pos + sz hdr.transactionSeqLength.toNat
      writeUint (buf + pos.toNat) hdr.destinationEntityId hdr.entityIdLength
      return size
  | _, _ => return sz 0

/-- Leaves the three identifiers as they are. -/
def unpackFlags (buf : Ptr) (hdr : PduHeader) : Except Fault PduHeader := do
  let o0 ← buf.load 0
  let o3 ← buf.load 3
  let pduType : PduType := ((o0 >>> 4) &&& 0x1).toUInt32
  let dataFieldLength ← readUint (buf.add 1) 2
  return { hdr with
    version := (o0 >>> 5) &&& 0x7
    pduType := pduType
    direction := ((o0 >>> 3) &&& 0x1).toUInt32
    transmissionMode := ((o0 >>> 2) &&& 0x1).toUInt32
    crcFlag := ((o0 >>> 1) &&& 0x1).toUInt32
    largeFileFlag := (o0 &&& 0x1).toUInt32
    dataFieldLength := dataFieldLength.toUInt16
    segmentationControl := ((o3 >>> 7) &&& segmentFlagsMask pduType).toUInt32
    entityIdLength := ((o3 >>> 4) &&& 0x7) + 1
    segmentMetadataFlag := ((o3 >>> 3) &&& segmentFlagsMask pduType).toUInt32
    transactionSeqLength := (o3 &&& 0x7) + 1 }

def pduHeaderDeserialize (buf : Option Ptr) (bufLen : Size T) (hdr : Option PduHeader) :
    Except Fault (Size T × Option PduHeader) :=
  match buf, hdr with
  | some buf, some hdr => do
      if bufLen < sz CFDP_PDU_HEADER_FIXED_LEN then return (sz 0, some hdr)
      let hdr ← unpackFlags buf hdr
      if hdr.version ≠ CFDP_PROTOCOL_VERSION then return (sz 0, some hdr)
      let size : Size T := pduHeaderSize (some hdr)
      if size = sz 0 ∨ bufLen < size then return (sz 0, some hdr)
      let pos : Size T := sz CFDP_PDU_HEADER_FIXED_LEN
      let sourceEntityId ← readUint (buf.add pos.toNat) hdr.entityIdLength
      let pos := pos + sz hdr.entityIdLength.toNat
      let transactionSeqNumber ← readUint (buf.add pos.toNat) hdr.transactionSeqLength
      let pos := pos + sz hdr.transactionSeqLength.toNat
      let destinationEntityId ← readUint (buf.add pos.toNat) hdr.entityIdLength
      return (size, some { hdr with sourceEntityId, transactionSeqNumber, destinationEntityId })
  | _, _ => return (sz 0, hdr)

/-! ### PDU CRC -/

def pduPayloadSize (hdr : Option PduHeader) : Except Fault (Size T) :=
  match hdr with
  | none => return sz 0
  | some hdr =>
      if hdr.crcFlag ≠ CFDP_CRC_PRESENT then return sz hdr.dataFieldLength.toNat
      else if hdr.dataFieldLength.toNat < CFDP_PDU_CRC_LEN then return sz 0
      else Size.sub (sz hdr.dataFieldLength.toNat) (sz CFDP_PDU_CRC_LEN)

/-- The object being filled, seen through a pointer. -/
def readBack (buf : Nat) : Writer Ptr := fun m => .ok (⟨m, buf⟩, m)

/-- `hdr` starts out uninitialised; it is read only once it is decoded. -/
def pduCrcAppend (buf : Option Nat) (pduLen bufLen : Size T) : Writer (Size T) :=
  match buf with
  | none => return sz 0
  | some buf => do
      let (n, hdr) ← pduHeaderDeserialize (some (← readBack buf)) pduLen (some default)
      let hdr := hdr.getD default
      if n = sz 0 ∨ hdr.crcFlag ≠ CFDP_CRC_PRESENT ∨ bufLen < pduLen + sz CFDP_PDU_CRC_LEN then
        return sz 0
      -- the length field has to count the CRC that is about to be written
      let described : Size T := pduHeaderSize (some hdr) + sz hdr.dataFieldLength.toNat
      if described ≠ pduLen + sz CFDP_PDU_CRC_LEN then return sz 0
      let crc ← crcCompute (some (← readBack buf)) pduLen
      writeUint (buf + pduLen.toNat) crc.toUInt64 2
      return pduLen + sz CFDP_PDU_CRC_LEN

def pduCrcVerify (buf : Option Ptr) (bufLen : Size T) : Except Fault Bool := do
  let (hsize, hdr) ← pduHeaderDeserialize buf bufLen (some default)
  let hdr := hdr.getD default
  if hsize = sz 0 then return false
  -- octets behind `total` belong to no PDU and are not looked at
  let total := hsize + sz hdr.dataFieldLength.toNat
  if bufLen < total then return false
  if hdr.crcFlag ≠ CFDP_CRC_PRESENT then return true
  if hdr.dataFieldLength.toNat < CFDP_PDU_CRC_LEN then return false
  let protectedLen ← Size.sub total (sz CFDP_PDU_CRC_LEN)
  let expected ← crcCompute buf protectedLen
  let received ← readUint ((← deref buf).add protectedLen.toNat) 2
  return expected = received.toUInt16

/-! ### File Data -/

def segmentMetadataConsistent (fd : FileDataPdu T) (segmentMetadataFlag : SegMetadataFlag) :
    Bool :=
  if segmentMetadataFlag ≠ CFDP_SEG_METADATA_PRESENT then
    -- the record continuation state is not looked at
    fd.segmentMetadataLen = 0 && fd.segmentMetadata.isNone
  else
    fd.segmentMetadataLen ≤ CFDP_SEGMENT_METADATA_MAX_LEN &&
      (fd.segmentMetadata.isSome || fd.segmentMetadataLen = 0)

def segmentMetadataWrite (fd : FileDataPdu T) (buf : Nat) : Writer (Size T) := do
  store buf
    (((fd.recordContinuation.toUInt8 &&& 0x3) <<< 6) ||| (fd.segmentMetadataLen &&& 0x3F))
  if fd.segmentMetadataLen > 0 then
    memcpy (buf + 1) fd.segmentMetadata fd.segmentMetadataLen.toNat
  return sz fd.segmentMetadataLen.toNat + sz 1

def fileDataSerialize (fd : Option (FileDataPdu T)) (largeFileFlag : LargeFileFlag)
    (segmentMetadataFlag : SegMetadataFlag) (buf : Option Nat) (bufLen : Size T) :
    Writer (Size T) :=
  match fd, buf with
  | some fd, some buf => do
      if (fd.fileData.isNone ∧ fd.fileDataLen > sz 0) ∨
          ¬ segmentMetadataConsistent fd segmentMetadataFlag then
        return sz 0
      let withMetadata := segmentMetadataFlag = CFDP_SEG_METADATA_PRESENT
      let metadataSize : Size T :=
        if withMetadata then sz fd.segmentMetadataLen.toNat + sz 1 else sz 0
      let offsetOctets := fileSizeOctets largeFileFlag
      -- three `size_t` summands, which may wrap
      let size := metadataSize + sz offsetOctets.toNat + fd.fileDataLen
      if bufLen < size then return sz 0
      let pos ← if withMetadata then segmentMetadataWrite fd buf else pure (sz 0)
      writeUint (buf + pos.toNat) fd.offset offsetOctets
      let pos := pos + sz offsetOctets.toNat
      if fd.fileDataLen > sz 0 then
        memcpy (buf + pos.toNat) fd.fileData fd.fileDataLen.toNat
        return pos + fd.fileDataLen
      else
        return pos
  | _, _ => return sz 0

def segmentMetadataRead (buf : Ptr) (bufLen : Size T) (fd : FileDataPdu T) :
    Except Fault (Size T × FileDataPdu T) := do
  if bufLen < sz 1 then return (sz 0, fd)
  let octet ← buf.load 0
  let fd := { fd with
    recordContinuation := ((octet >>> 6) &&& 0x3).toUInt32
    segmentMetadataLen := octet &&& 0x3F }
  if bufLen < sz fd.segmentMetadataLen.toNat + sz 1 then return (sz 0, fd)
  let fd := { fd with
    segmentMetadata := if fd.segmentMetadataLen > 0 then some (buf.add 1) else none }
  return (sz fd.segmentMetadataLen.toNat + sz 1, fd)

def fileDataDeserialize (buf : Option Ptr) (bufLen : Size T) (largeFileFlag : LargeFileFlag)
    (segmentMetadataFlag : SegMetadataFlag) (fd : Option (FileDataPdu T)) :
    Except Fault (Size T × Option (FileDataPdu T)) :=
  match buf, fd with
  | some buf, some fd => do
      let fd := { fd with
        recordContinuation := CFDP_RECORD_CONT_NEITHER
        segmentMetadata := none
        segmentMetadataLen := 0 }
      let present := segmentMetadataFlag = CFDP_SEG_METADATA_PRESENT
      let (pos, fd) ← if present then segmentMetadataRead buf bufLen fd else pure (sz 0, fd)
      if present ∧ pos = sz 0 then return (sz 0, some fd)
      let offsetOctets := fileSizeOctets largeFileFlag
      if bufLen < pos + sz offsetOctets.toNat then return (sz 0, some fd)
      let offset ← readUint (buf.add pos.toNat) offsetOctets
      let pos := pos + sz offsetOctets.toNat
      -- the file data is all that remains, possibly nothing
      return (bufLen, some { fd with
        offset := offset
        fileData := if bufLen > pos then some (buf.add pos.toNat) else none
        fileDataLen := ← Size.sub bufLen pos })
  | _, _ => return (sz 0, fd)

def pduDirectiveCode (buf : Option Ptr) (bufLen : Size T) (code : Option DirectiveCode) :
    Except Fault (Bool × Option DirectiveCode) :=
  match buf, code with
  | some buf, some _ => do
      if bufLen = sz 0 then return (false, code)
      let octet ← buf.load 0
      return (true, some octet.toUInt32)
  | _, _ => return (false, code)

end EmbeddedCfdp

import EmbeddedCfdp.CMemory

/-!
# Constants and enumerations (`cfdp_common.h`)

An object of an enumeration type can hold any value of the underlying type, not
only the enumerators, and the decoders do produce others (a reserved condition
code, a checksum type 1-14).  An enumeration is therefore its underlying
`unsigned int`, with the enumerators as constants.
-/

namespace EmbeddedCfdp

open CMemory

def CFDP_PROTOCOL_VERSION : UInt8 := 1
def CFDP_ID_LEN_MIN : UInt8 := 1
def CFDP_ID_LEN_MAX : UInt8 := 8
def CFDP_PDU_HEADER_FIXED_LEN : Nat := 4
def CFDP_PDU_CRC_LEN : Nat := 2
def CFDP_SEGMENT_METADATA_MAX_LEN : UInt8 := 63

/-- The underlying type of the enumerations. -/
abbrev CEnum := UInt32

abbrev PduType := CEnum
def CFDP_PDU_TYPE_DIRECTIVE : PduType := 0
def CFDP_PDU_TYPE_FILE_DATA : PduType := 1

abbrev Direction := CEnum
def CFDP_DIRECTION_TOWARD_RECEIVER : Direction := 0

abbrev TransmissionMode := CEnum
def CFDP_TRANS_MODE_UNACKNOWLEDGED : TransmissionMode := 1

abbrev CrcFlag := CEnum
def CFDP_CRC_ABSENT : CrcFlag := 0
def CFDP_CRC_PRESENT : CrcFlag := 1

abbrev LargeFileFlag := CEnum
def CFDP_FILE_SIZE_SMALL : LargeFileFlag := 0
def CFDP_FILE_SIZE_LARGE : LargeFileFlag := 1

abbrev SegCtrl := CEnum
def CFDP_SEG_CTRL_BOUNDARIES_NOT_PRESERVED : SegCtrl := 0

abbrev SegMetadataFlag := CEnum
def CFDP_SEG_METADATA_ABSENT : SegMetadataFlag := 0
def CFDP_SEG_METADATA_PRESENT : SegMetadataFlag := 1

abbrev RecordContinuation := CEnum
def CFDP_RECORD_CONT_NEITHER : RecordContinuation := 0

abbrev DirectiveCode := CEnum
def CFDP_DIRECTIVE_EOF : DirectiveCode := 0x04
def CFDP_DIRECTIVE_FINISHED : DirectiveCode := 0x05
def CFDP_DIRECTIVE_ACK : DirectiveCode := 0x06
def CFDP_DIRECTIVE_METADATA : DirectiveCode := 0x07
def CFDP_DIRECTIVE_NAK : DirectiveCode := 0x08
def CFDP_DIRECTIVE_PROMPT : DirectiveCode := 0x09
def CFDP_DIRECTIVE_KEEP_ALIVE : DirectiveCode := 0x0C

abbrev ConditionCode := CEnum
def CFDP_COND_NO_ERROR : ConditionCode := 0x0
def CFDP_COND_POSITIVE_ACK_LIMIT_REACHED : ConditionCode := 0x1
def CFDP_COND_UNSUPPORTED_CHECKSUM_TYPE : ConditionCode := 0xB

abbrev DeliveryCode := CEnum

abbrev FileStatus := CEnum

abbrev TransactionStatus := CEnum

abbrev ChecksumType := CEnum
def CFDP_CHECKSUM_MODULAR : ChecksumType := 0
def CFDP_CHECKSUM_NULL : ChecksumType := 15

abbrev PromptResponse := CEnum

/-- Octets of a file offset or size: 8 for a large file, 4 for a small one. -/
def fileSizeOctets (largeFileFlag : LargeFileFlag) : UInt8 :=
  if largeFileFlag = CFDP_FILE_SIZE_LARGE then 8 else 4

/-- The width of an offset or a size on the wire: eight octets under the large file flag, four
    under any other. -/
def fileSizeWidth (largeFileFlag : LargeFileFlag) : Nat :=
  if largeFileFlag = CFDP_FILE_SIZE_LARGE then 8 else 4

theorem toNat_fileSizeOctets (largeFileFlag : LargeFileFlag) :
    (fileSizeOctets largeFileFlag).toNat = fileSizeWidth largeFileFlag := by
  unfold fileSizeOctets fileSizeWidth
  by_cases h : largeFileFlag = CFDP_FILE_SIZE_LARGE
  · rw [if_pos h, if_pos h]
    rfl
  · rw [if_neg h, if_neg h]
    rfl

theorem fileSizeOctets_eq (largeFileFlag : LargeFileFlag) :
    fileSizeOctets largeFileFlag = 8 ∨ fileSizeOctets largeFileFlag = 4 := by
  unfold fileSizeOctets
  by_cases h : largeFileFlag = CFDP_FILE_SIZE_LARGE
  · exact Or.inl (if_pos h)
  · exact Or.inr (if_neg h)

end EmbeddedCfdp

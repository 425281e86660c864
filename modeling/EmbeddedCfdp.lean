import EmbeddedCfdp.CMemory
import EmbeddedCfdp.CodecRules
import EmbeddedCfdp.BigEndian
import EmbeddedCfdp.BitFields
import EmbeddedCfdp.PrefixCodec
import EmbeddedCfdp.SpanWalk
import EmbeddedCfdp.CrcRegister
import EmbeddedCfdp.Common
import EmbeddedCfdp.Endian
import EmbeddedCfdp.Crc
import EmbeddedCfdp.Checksum
import EmbeddedCfdp.Tlv
import EmbeddedCfdp.TlvItems
import EmbeddedCfdp.TlvSerialise
import EmbeddedCfdp.TlvDeserialise
import EmbeddedCfdp.Pdu
import EmbeddedCfdp.Directive
import EmbeddedCfdp.HeaderCodec
import EmbeddedCfdp.HeaderRoundTrip
import EmbeddedCfdp.PduCrc
import EmbeddedCfdp.BurstDetection
import EmbeddedCfdp.FileDataCodec
import EmbeddedCfdp.FileDataRoundTrip
import EmbeddedCfdp.FileTransfer
import EmbeddedCfdp.DirectiveSerialise
import EmbeddedCfdp.Serialisers
import EmbeddedCfdp.DirectiveDeserialise
import EmbeddedCfdp.FinishedChain
import EmbeddedCfdp.FaultLocation
import EmbeddedCfdp.Receiver
import EmbeddedCfdp.FilestoreRoundTrip
import EmbeddedCfdp.FinishedRoundTrip
import EmbeddedCfdp.MetadataRoundTrip
import EmbeddedCfdp.NakRoundTrip
import EmbeddedCfdp.EofRoundTrip
import EmbeddedCfdp.TlvChain
import EmbeddedCfdp.FilestoreLanguage
import EmbeddedCfdp.SizeWrap
import EmbeddedCfdp.SegmentMetadata
import EmbeddedCfdp.CrcDivision
import EmbeddedCfdp.CrcAgreement
import EmbeddedCfdp.NumericFields
import EmbeddedCfdp.ChecksumWords
import EmbeddedCfdp.FinishedOutputs
import EmbeddedCfdp.SixteenBitLengths
import EmbeddedCfdp.FileDataBounds
import EmbeddedCfdp.CrcAppend
import EmbeddedCfdp.NarrowSize
import EmbeddedCfdp.PriorContents
import EmbeddedCfdp.CrcOrder
import EmbeddedCfdp.ErrorPatterns
import EmbeddedCfdp.DirectiveDispatch
import EmbeddedCfdp.PduReception
import EmbeddedCfdp.PduExchange
import EmbeddedCfdp.Example
import EmbeddedCfdp.Reassembly
import EmbeddedCfdp.Delivery
import EmbeddedCfdp.SpareBits
import EmbeddedCfdp.Resending
import EmbeddedCfdp.PduExtent
import EmbeddedCfdp.MetadataOptions
import EmbeddedCfdp.ChecksumErrors
import EmbeddedCfdp.OptionsLanguage
import EmbeddedCfdp.CrcFlag
import EmbeddedCfdp.Transfer
import EmbeddedCfdp.Builds
import EmbeddedCfdp.CrcShare
import EmbeddedCfdp.RunningChecksum

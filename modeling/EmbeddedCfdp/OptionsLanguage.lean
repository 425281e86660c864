import EmbeddedCfdp.FilestoreLanguage
import EmbeddedCfdp.MetadataOptions

/-!
# The language of the options

Which octets a receiver walks to their end as options, whoever sent them: exactly the chains
of TLVs each of which its codec accepts.  What was found is built again into the same octets,
but for the spare bits of the filestore requests.
-/

namespace EmbeddedCfdp

open CMemory

variable {T : Target}

/-- A TLV with its spare bits cleared; only filestore requests have any. -/
def TlvItem.clearSpare (t : TlvItem) : TlvItem :=
  if t.type = CFDP_TLV_FILESTORE_REQUEST.toUInt8 then
    ⟨t.type, t.value.set 0 (t.value.getD 0 0 &&& 0xF0), by
      rw [List.length_set]
      exact t.short⟩
  else t

section Step

variable {p : Ptr} {len : Size T} {t : TlvItem} {o : MetadataOption} {zs rest : List UInt8}

end Step

/-! ### The whole walk -/

section Walk

variable {p : Ptr} {len : Size T} {xs : List UInt8}

end Walk

end EmbeddedCfdp

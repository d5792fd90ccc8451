import DecoderTables.Selector

/-!
What a user chooses about the headers.
-/

namespace DecoderTables

structure HeaderOptions where
  /-- The C++ namespace of the declarations. -/
  scope : String := "libmicroemu::internal"
  /-- The lowest bit of the selector in the low half-word. -/
  opcodeFirst : UInt32 := 11
  /-- The path under which the decoder header includes the instruction header. -/
  instrHeader : String := "libmicroemu/internal/decoder/instr.h"

namespace HeaderOptions

/-- The highest place of a selector that fits in a half-word. -/
def opcodeFirstMax : UInt32 :=
  .ofNat (halfWidth - Selector.width)

/-- The highest bit of the selector, at most the largest number of 32 bits. -/
def opcodeLast (options : HeaderOptions) : UInt32 :=
  .ofNat (min (options.opcodeFirst.toNat + (Selector.width - 1)) 0xFFFFFFFF)

/-- Whether the selector fits in the low half-word. -/
def isValid (options : HeaderOptions) : Bool :=
  options.opcodeFirst ≤ opcodeFirstMax

end HeaderOptions

end DecoderTables

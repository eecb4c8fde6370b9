import TrustedFirmware.Foundations.ByteMemory

/-! # FF-A memory descriptors

The layouts of `include/services/el3_spmc_ffa_memory.h` over a byte view of a
descriptor. A memory transaction descriptor takes 48 bytes in version 1.1 and 32 in
version 1.0; an endpoint descriptor (emad), a composite descriptor and a constituent
take 16 bytes each. An endpoint or composite descriptor is given by its offset. -/
namespace TrustedFirmware.Spmc
open ByteMemory
set_option autoImplicit false

/-! ## Constants -/

def FFA_ERROR_NOT_SUPPORTED : Int := -1
def FFA_ERROR_INVALID_PARAMETER : Int := -2
def FFA_ERROR_NO_MEMORY : Int := -3
def FFA_ERROR_DENIED : Int := -6

def FFA_VERSION_NULL : ℕ := 0
def FFA_VERSION_SPMC_MAJOR : ℕ := 1
def FFA_VERSION_SPMC_MINOR : ℕ := 2

def FFA_MEM_ATTR_NS_BIT : ℕ := 0x40
def FFA_MTD_FLAG_TYPE_MASK : ℕ := 0x18
def FFA_MTD_FLAG_TYPE_SHARE_MEMORY : ℕ := 0x8
def FFA_MTD_FLAG_TYPE_LEND_MEMORY : ℕ := 0x10

def UINT32_MAX : ℕ := 0xffffffff
def UINT64_MAX : ℕ := 0xffffffffffffffff

def makeFfaVersion (major minor : ℕ) : ℕ := major % 2 ^ 15 * 2 ^ 16 + minor % 2 ^ 16

def FFA_VERSION_COMPILED : ℕ := makeFfaVersion 1 3

def spmcFfaVersionIsValid (version : ℕ) : Bool := version / 2 ^ 31 % 2 == 0

def spmcFfaVersionGetMajor (version : ℕ) : ℕ := version / 2 ^ 16 % 2 ^ 15

def spmcFfaVersionGetMinor (version : ℕ) : ℕ := version % 2 ^ 16

def spmcFfaVersionsAreCompatible (caller callee : ℕ) : Bool :=
  spmcFfaVersionGetMajor caller == spmcFfaVersionGetMajor callee &&
    decide (spmcFfaVersionGetMinor caller ≤ spmcFfaVersionGetMinor callee)

def spmcCompatibleVersion (ffaVersion major minor : ℕ) : Bool :=
  spmcFfaVersionIsValid ffaVersion && spmcFfaVersionGetMajor ffaVersion == major &&
    decide (minor ≤ spmcFfaVersionGetMinor ffaVersion)

/-- Bit 15 of an endpoint id tells the worlds apart. -/
def ffaIsSecureWorldId (id : ℕ) : Bool := id / 2 ^ 15 % 2 == 1

/-- The macro compares `round_up` and `round_down`, which meet on the multiples of the boundary. -/
def isAligned (value boundary : ℕ) : Bool := value % boundary == 0

/-! ## Layouts -/

namespace Mtd

def senderId (d : Bytes) : ℕ := load d 0 2
def memoryRegionAttributes (d : Bytes) : ℕ := load d 2 2
def flags (d : Bytes) : ℕ := load d 4 4
def handle (d : Bytes) : ℕ := load d 8 8
def tag (d : Bytes) : ℕ := load d 16 8
def emadSize (d : Bytes) : ℕ := load d 24 4
def emadCount (d : Bytes) : ℕ := load d 28 4
def emadOffset (d : Bytes) : ℕ := load d 32 4

/-- Version 1.0 has one byte of attributes; the fields before and behind it do not move. -/
def memoryRegionAttributesV10 (d : Bytes) : ℕ := load d 2 1

end Mtd

namespace Emad

def endpointId (d : Bytes) (e : ℕ) : ℕ := load d e 2
def memoryAccessPermissions (d : Bytes) (e : ℕ) : ℕ := load d (e + 2) 1
def flags (d : Bytes) (e : ℕ) : ℕ := load d (e + 3) 1
def compMrdOffset (d : Bytes) (e : ℕ) : ℕ := load d (e + 4) 4

end Emad

namespace CompMrd

def totalPageCount (d : Bytes) (c : ℕ) : ℕ := load d c 4
def addressRangeCount (d : Bytes) (c : ℕ) : ℕ := load d (c + 4) 4
def address (d : Bytes) (c i : ℕ) : ℕ := load d (c + 16 + 16 * i) 8
def pageCount (d : Bytes) (c i : ℕ) : ℕ := load d (c + 16 + 16 * i + 8) 4

def ranges (d : Bytes) (c : ℕ) : List (ℕ × ℕ) :=
  (List.range (addressRangeCount d c)).map fun i => (address d c i, pageCount d c i)

end CompMrd

/-- The offsets of `n` endpoint descriptors of `size` bytes each. -/
def emadOffsets (first size n : ℕ) : List ℕ := (List.range n).map fun i => first + size * i

end TrustedFirmware.Spmc

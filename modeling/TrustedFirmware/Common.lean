import Mathlib.Tactic

/-! # What the parts of the firmware share

Error numbers of `include/lib/libc/errno.h` that the modelled functions return, negated. -/
namespace TrustedFirmware.Libc

def EPERM : Int := 1
def ENOENT : Int := 2
def EIO : Int := 5
def ENOMEM : Int := 12
def EFAULT : Int := 14
def EINVAL : Int := 22
def ENFILE : Int := 23
def ERANGE : Int := 34
def EAGAIN : Int := 35
def EALREADY : Int := 37
def EAUTH : Int := 80
def EOVERFLOW : Int := 84
def ENOTCAPABLE : Int := 93

end TrustedFirmware.Libc

namespace TrustedFirmware.Utils

def checkU64Overflow (u inc : UInt64) : Bool := u > 0xFFFFFFFFFFFFFFFF - inc

end TrustedFirmware.Utils

/-! The CRC-32 of `common/tf_crc32.c`. -/
namespace TrustedFirmware.Crc32
set_option autoImplicit false

/-- One bit of the CRC-32 with the reflected polynomial. -/
def crc32Shift (c : UInt32) : UInt32 :=
  if c &&& 1 = 1 then (c >>> 1) ^^^ 0xEDB88320 else c >>> 1

/-- The instruction `CRC32B`. -/
def crc32b (c : UInt32) (b : UInt8) : UInt32 := crc32Shift^[8] (c ^^^ b.toUInt32)

def tfCrc32 (crc : UInt32) (buf : List UInt8) : UInt32 := ~~~ (buf.foldl crc32b (~~~ crc))

-- The check value of the CRC-32, for the digits from 1 to 9.
example : tfCrc32 0 [0x31, 0x32, 0x33, 0x34, 0x35, 0x36, 0x37, 0x38, 0x39] = 0xCBF43926 := by
  decide +kernel

end TrustedFirmware.Crc32

/-! Function identifiers of the SMC calling convention, `include/lib/smccc.h`. -/
namespace TrustedFirmware.Smccc

def FUNCID_TYPE_SHIFT : ℕ := 31
def FUNCID_TYPE_MASK : BitVec 32 := 0x1
def FUNCID_CC_SHIFT : ℕ := 30
def FUNCID_OEN_SHIFT : ℕ := 24
def FUNCID_OEN_MASK : BitVec 32 := 0x3f
def FUNCID_OEN_WIDTH : ℕ := 6
def FUNCID_FC_RESERVED_SHIFT : ℕ := 17
def FUNCID_FC_RESERVED_WIDTH : ℕ := 7
def FUNCID_SVE_HINT_SHIFT : ℕ := 16
def FUNCID_SVE_HINT_WIDTH : ℕ := 1
def SMC_64 : BitVec 32 := 1

end TrustedFirmware.Smccc

/-! The part of `cpu_context_t` that the modelled services read and write: the
general purpose registers X0 to X30 and the saved `SCR_EL3`. A register is
addressed by its number, as `CTX_GPREG_Xn` addresses it by its offset. -/
namespace TrustedFirmware.El3Runtime
set_option autoImplicit false

abbrev Reg := BitVec 64

/-- `gp_regs_t`. -/
abbrev GpRegs := Fin 31 → Reg

structure CpuContext where
  gpregs : GpRegs
  scrEl3 : Reg

/-- `write_ctx_reg(get_gpregs_ctx(ctx), CTX_GPREG_Xn, v)`. -/
def writeGp (g : GpRegs) (n : Fin 31) (v : Reg) : GpRegs := Function.update g n v

/-- The consecutive writes of `SMC_RET1` to `SMC_RET18`: the values go to the registers from
number `n` on. -/
def writeGpFrom (g : GpRegs) (n : ℕ) : List Reg → GpRegs
  | [] => g
  | v :: vs => fun i => if i.val = n then v else writeGpFrom g (n + 1) vs i

theorem writeGpFrom_get (g : GpRegs) (vs : List Reg) :
    ∀ (n : ℕ) (i : Fin 31), writeGpFrom g n vs i =
      if n ≤ i.val ∧ i.val < n + vs.length then vs.getD (i.val - n) 0 else g i := by
  induction vs with
  | nil =>
    intro n i
    have h : ¬ (n ≤ i.val ∧ i.val < n + ([] : List Reg).length) := by
      simp only [List.length_nil]; omega
    rw [if_neg h]; rfl
  | cons v vs ih =>
    intro n i
    simp only [writeGpFrom, ih (n + 1) i, List.length_cons]
    by_cases hn : i.val = n
    · simp [hn]
    · rw [if_neg hn]
      by_cases hr : n + 1 ≤ i.val ∧ i.val < n + 1 + vs.length
      · rw [if_pos hr, if_pos (by omega)]
        have e : i.val - n = (i.val - (n + 1)) + 1 := by omega
        rw [e, List.getD_cons_succ]
      · rw [if_neg hr, if_neg (by omega)]

end TrustedFirmware.El3Runtime

import Mathlib.Algebra.Group.Nat.Defs
import TrustedFirmware.Foundations.Tables

/-! # Assignment of memory to the modem VMs

`mem_assign()` of the access control driver with the part of the XPU driver that it reaches. An MPU is
the list of its dynamic resource groups (RGs), each with the table entries that the driver keeps for
it and the permission registers of the hardware. `msm_mpu_ranges` gives the MPUs of a device. A call
either returns, or it finds an MPU without a free RG and waits for interrupts for ever, the lock
`mem_assign_lock` still held; the tables are then those that the calls before the failing one left. -/
namespace TrustedFirmware.Qti
open SlotTable
set_option autoImplicit false

/-! ## Requests -/

def SIZE4K : UInt64 := 4096
def QTI_VM_LAST : ℕ := 44
def QTI_VM_MAX_LIST_SIZE : ℕ := 0x20

structure Mem where
  memAddr : UInt64
  memSize : UInt64
  deriving DecidableEq, Repr

structure Perm where
  dstVm : UInt32
  dstVmPerm : UInt32
  deriving DecidableEq, Repr

/-- The arguments of `qti_accesscontrol_mem_assign()`. -/
structure Request where
  mem : List Mem
  src : List UInt32
  dst : List Perm
  deriving DecidableEq, Repr

/-- `qti_mem_assign_validate_param()`. With `COREBOOT` the platform also asks what kind of memory the
region is. -/
def qtiMemAssignValidateParam (memTypeOk : Mem → Bool) (r : Request) : Bool :=
  !(r.src.length == 0 || QTI_VM_LAST ≤ r.src.length || r.dst.length == 0 ||
      QTI_VM_LAST ≤ r.dst.length || r.mem.length == 0 || QTI_VM_MAX_LIST_SIZE < r.mem.length) &&
    r.mem.all (fun m =>
      !(m.memAddr &&& (SIZE4K - 1) != 0 || m.memSize == 0 || m.memSize &&& (SIZE4K - 1) != 0) &&
        !(2 ^ 64 ≤ m.memAddr.toNat + m.memSize.toNat) && memTypeOk m) &&
    r.src.all (fun vm => !(QTI_VM_LAST ≤ vm.toNat)) &&
    r.dst.all (fun d => !(QTI_VM_LAST ≤ d.dstVm.toNat))

/-! ## The tables -/

/-- `enum domain_type` -/
inductive DomainType where
  | NO_DOMAIN
  | APPS_NS_DOMAIN
  | APPS_S_DOMAIN
  | MSA_DOMAIN
  deriving DecidableEq, Repr

def DomainType.bits : DomainType → UInt32
  | NO_DOMAIN => 0
  | APPS_NS_DOMAIN => 1
  | APPS_S_DOMAIN => 0x101
  | MSA_DOMAIN => 2

/-- `enum device_type`, and the value 0 that `mem_assign()` starts with. -/
inductive DeviceType where
  | none
  | DEVICE_MODEM
  | DEVICE_MSS_NAV
  deriving DecidableEq, Repr

def XPU_INVALID_ADDR : UInt64 := 0xffffffff

/-- The addresses from the first up to and without the second. -/
abbrev Range := UInt64 × UInt64

/-- A dynamic RG: `rg_partition_range`, `rg_domain_ownership` and the registers `CR1` and `CR3`. -/
structure Rg where
  range : Range
  ownerDomain : DomainType
  permR : UInt32
  permW : UInt32
  deriving DecidableEq, Repr

def Rg.free (rg : Rg) : Bool :=
  rg.ownerDomain == .NO_DOMAIN && rg.range.1 == XPU_INVALID_ADDR && rg.range.2 == XPU_INVALID_ADDR

/-- `struct mpu_ranges`; an MPU has `device_prtn_cnt` dynamic RGs. -/
structure MpuRanges where
  device : DeviceType
  mpus : List (List Rg)
  named : device ≠ .none
  deriving DecidableEq, Repr

def NUM_MODEM_MPU_PARTITIONS : ℕ := 7
def NUM_MSS_NAV_MPU_PARTITIONS : ℕ := 8

def unsetRgs (count : ℕ) : List Rg := List.replicate count ⟨(0, 0), .NO_DOMAIN, 0, 0⟩

/-- `msm_mpu_ranges` of kodiak. -/
def msmMpuRanges : List MpuRanges :=
  [⟨.DEVICE_MODEM, List.replicate 2 (unsetRgs NUM_MODEM_MPU_PARTITIONS), by decide⟩,
    ⟨.DEVICE_MSS_NAV, List.replicate 3 (unsetRgs NUM_MSS_NAV_MPU_PARTITIONS), by decide⟩]

/-- `xpu_init_unused_regions()`; the permission registers keep what the hardware has. -/
def xpuInitUnusedRegions (mpu : List Rg) : List Rg :=
  mpu.map fun rg =>
    { rg with range := (XPU_INVALID_ADDR, XPU_INVALID_ADDR), ownerDomain := .NO_DOMAIN }

def xpuMasterMpuInit (ranges : List MpuRanges) : List MpuRanges :=
  ranges.map fun r => { r with mpus := r.mpus.map xpuInitUnusedRegions }

/-- `update_master_side_mpu()`, or `none` where it finds no RG to use. -/
def updateMasterSideMpu (domain : DomainType) (range : Range) (permR permW : UInt32)
    (mpu : List Rg) : Option (List Rg) :=
  match search (fun rg => rg.range == range) Rg.free mpu 0 none with
  | none => none
  | some (idx, exact) =>
    if exact && domain == .APPS_NS_DOMAIN then
      some (mpu.set idx ⟨(XPU_INVALID_ADDR, XPU_INVALID_ADDR), .NO_DOMAIN, permR, permW⟩)
    else some (mpu.set idx ⟨range, domain, permR, permW⟩)

/-- The MPUs of a device in turn. The result on the left is what stands in the tables when an MPU has
no RG to use: the MPUs before it are programmed already. -/
def updateMpus (domain : DomainType) (range : Range) (permR permW : UInt32) :
    List (List Rg) → Except (List (List Rg)) (List (List Rg))
  | [] => .ok []
  | mpu :: mpus =>
    match updateMasterSideMpu domain range permR permW mpu with
    | none => .error (mpu :: mpus)
    | some mpu' =>
      match updateMpus domain range permR permW mpus with
      | .error mpus' => .error (mpu' :: mpus')
      | .ok mpus' => .ok (mpu' :: mpus')

/-- `mpu_master_mpus_range()`: the MPUs of the first entry for the device. An error is the endless loop
at the end of the function. -/
def mpuMasterMpusRange (device : DeviceType) (domain : DomainType) (range : Range)
    (permR permW : UInt32) : List MpuRanges → Except (List MpuRanges) (List MpuRanges)
  | [] => .ok []
  | r :: ranges =>
    if r.device = device then
      match updateMpus domain range permR permW r.mpus with
      | .error mpus => .error ({ r with mpus } :: ranges)
      | .ok mpus => .ok ({ r with mpus } :: ranges)
    else
      match mpuMasterMpusRange device domain range permR permW ranges with
      | .error ranges' => .error (r :: ranges')
      | .ok ranges' => .ok (r :: ranges')

/-! ## `mem_assign()` -/

def AC_PERM_W : UInt32 := 2
def AC_PERM_R : UInt32 := 4

def AC_VM_HLOS : UInt32 := 3
def AC_VM_MSS_MSA : UInt32 := 15
def AC_VM_MSS_NAV : UInt32 := 43
def AC_VM_LAST : ℕ := 44

inductive AcError where
  | AC_ERR_XPU_TYPE_NOT_SUPPORTED
  deriving DecidableEq, Repr

/-- What the two lists of VMs are folded into. -/
structure Target where
  device : DeviceType
  domain : DomainType
  readPermDomain : DomainType
  writePermDomain : DomainType
  deriving DecidableEq, Repr

def vmDevice (vm : UInt32) : Except AcError DeviceType :=
  if vm = AC_VM_MSS_MSA then .ok .DEVICE_MODEM
  else if vm = AC_VM_MSS_NAV then .ok .DEVICE_MSS_NAV
  else .error .AC_ERR_XPU_TYPE_NOT_SUPPORTED

def processSources (dst : List Perm) : List UInt32 → Target → Except AcError Target
  | [], t => .ok t
  | vm :: src, t =>
    if vm != AC_VM_MSS_MSA && vm != AC_VM_MSS_NAV then processSources dst src t
    else if (dst.take AC_VM_LAST).any (fun d => d.dstVm == vm) then processSources dst src t
    else
      match vmDevice vm with
      | .error e => .error e
      | .ok device => processSources dst src { t with device, domain := .APPS_NS_DOMAIN }

def processDestinations (src : List UInt32) : List Perm → Target → Except AcError Target
  | [], t => .ok t
  | d :: dst, t =>
    if d.dstVm != AC_VM_MSS_MSA && d.dstVm != AC_VM_MSS_NAV then processDestinations src dst t
    else if src.any (fun vm => d.dstVm == vm) then processDestinations src dst t
    else
      match vmDevice d.dstVm with
      | .error e => .error e
      | .ok device =>
        processDestinations src dst {
          device
          domain := .APPS_S_DOMAIN
          writePermDomain :=
            if d.dstVmPerm &&& AC_PERM_W != 0 then .MSA_DOMAIN else t.writePermDomain
          readPermDomain :=
            if d.dstVmPerm &&& AC_PERM_R != 0 then .MSA_DOMAIN else t.readPermDomain }

def Mem.range (m : Mem) : Range := (m.memAddr, m.memAddr + m.memSize)

def assignRegions (t : Target) : List Mem → List MpuRanges → Except (List MpuRanges) (List MpuRanges)
  | [], ranges => .ok ranges
  | m :: mem, ranges =>
    match mpuMasterMpusRange t.device t.domain m.range t.readPermDomain.bits t.writePermDomain.bits
        ranges with
    | .error ranges' => .error ranges'
    | .ok ranges' => assignRegions t mem ranges'

def Target.initial : Target := ⟨.none, .NO_DOMAIN, .NO_DOMAIN, .NO_DOMAIN⟩

def Request.target (r : Request) : Except AcError Target :=
  match processSources r.dst r.src .initial with
  | .error e => .error e
  | .ok t => processDestinations r.src r.dst t

/-- `mem_assign()`: the value it returns and the tables, or on the left the tables of a call that
waits for ever. -/
def memAssign (ranges : List MpuRanges) (r : Request) :
    Except (List MpuRanges) (Int × List MpuRanges) :=
  match r.target with
  | .error _ => .ok (-1, ranges)
  | .ok t =>
    match assignRegions t r.mem ranges with
    | .error ranges' => .error ranges'
    | .ok ranges' => .ok (0, ranges')

end TrustedFirmware.Qti

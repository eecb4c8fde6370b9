import TrustedFirmware.Foundations.WordMemory
import TrustedFirmware.Common

/-! # Firmware update metadata

`drivers/fwu/fwu.c`: loading the metadata, its checks, and what is decided from it
afterwards. The static `metadata` is a memory of bytes, addressed by the offset in
`struct fwu_metadata`, so that every access of the source is an access here. Of the
platforms the Arm one is modelled, as the reader of the image entries. -/
namespace TrustedFirmware.Fwu
open WordMemory Libc Crc32
set_option autoImplicit false

abbrev Buffer := Mem ℕ UInt8

abbrev FwuProg := Prog ℕ UInt8

/-! ## Layout -/

def NR_OF_MAX_FW_BANKS : ℕ := 4

structure FwuConfig where
  banks : ℕ
  images : ℕ
  storeDesc : Bool
  banks_mem : 0 < banks ∧ banks ≤ NR_OF_MAX_FW_BANKS
  images_pos : 0 < images

def FWU_METADATA_VERSION : ℕ := 2
def FWU_FW_STORE_DESC_OFFSET : ℕ := 0x20
def FWU_BANK_STATE_ACCEPTED : UInt8 := 0xFC
def FWU_BANK_STATE_VALID : UInt8 := 0xFE
def INVALID_BOOT_IDX : ℕ := 0xFFFFFFFF

/-- `offsetof` in `struct fwu_metadata`. -/
def CRC_32 : ℕ := 0
def VERSION : ℕ := 4
def ACTIVE_INDEX : ℕ := 8
def PREVIOUS_ACTIVE_INDEX : ℕ := 12
def METADATA_SIZE : ℕ := 16
def DESC_OFFSET : ℕ := 20
def BANK_STATE : ℕ := 24
def FW_DESC : ℕ := 0x20

/-- `offsetof` in `struct fwu_fw_store_descriptor`. -/
def NUM_BANKS : ℕ := 0
def NUM_IMAGES : ℕ := 2
def IMG_ENTRY_SIZE : ℕ := 4
def BANK_INFO_ENTRY_SIZE : ℕ := 6
def IMG_ENTRY : ℕ := 8

def GUID_SIZE : ℕ := 16

/-- `sizeof(struct fwu_image_bank_info)`. -/
def bankInfoSize : ℕ := GUID_SIZE + 4 + 4

/-- `offsetof(struct fwu_image_entry, img_bank_info)`. -/
def IMG_BANK_INFO : ℕ := 2 * GUID_SIZE

/-- `sizeof(struct fwu_image_entry)`. -/
def imageEntrySize (cfg : FwuConfig) : ℕ := IMG_BANK_INFO + cfg.banks * bankInfoSize

/-- `sizeof(struct fwu_metadata)`. -/
def sizeofMetadata (cfg : FwuConfig) : ℕ :=
  FW_DESC + if cfg.storeDesc then IMG_ENTRY + cfg.images * imageEntrySize cfg else 0

/-! ## Accesses -/

def loadLe : ℕ → ℕ → FwuProg ℕ
  | _, 0 => pure 0
  | a, n + 1 => do
    let b ← Prog.load a
    let rest ← loadLe (a + 1) n
    pure (b.toNat + 256 * rest)

def loadBytes : ℕ → ℕ → FwuProg (List UInt8)
  | _, 0 => pure []
  | a, n + 1 => do
    let b ← Prog.load a
    let rest ← loadBytes (a + 1) n
    pure (b :: rest)

/-! ## Checks -/

/-- The loop of `tf_crc32()` over the `n` bytes at `a`. -/
def crcLoop : ℕ → ℕ → UInt32 → FwuProg UInt32
  | 0, _, c => pure c
  | n + 1, a, c => do
    let b ← Prog.load a
    crcLoop n (a + 1) (crc32b c b)

def crcOver (a n : ℕ) : FwuProg UInt32 := do
  let c ← crcLoop n a (~~~ 0)
  pure (~~~ c)

/-- The length is computed in a `size_t`. -/
def fwuMetadataCrcCheck : FwuProg Int := do
  let size ← loadLe METADATA_SIZE 4
  let calcCrc ← crcOver (CRC_32 + 4) ((size + 2 ^ 64 - 4) % 2 ^ 64)
  let crc ← loadLe CRC_32 4
  pure (if crc ≠ calcCrc.toNat then -1 else 0)

def descriptorCheck (cfg : FwuConfig) : FwuProg Int := do
  let numBanks ← loadLe (FW_DESC + NUM_BANKS) 1
  if numBanks ≠ cfg.banks then pure (-EINVAL) else
  let numImages ← loadLe (FW_DESC + NUM_IMAGES) 2
  if numImages > cfg.images then pure (-EINVAL) else
  let infoSize ← loadLe (FW_DESC + BANK_INFO_ENTRY_SIZE) 2
  if infoSize ≠ bankInfoSize then pure (-EINVAL) else
  let entrySize ← loadLe (FW_DESC + IMG_ENTRY_SIZE) 2
  if entrySize ≠ imageEntrySize cfg then pure (-EINVAL) else
  let descOffset ← loadLe DESC_OFFSET 2
  pure (if descOffset ≠ FWU_FW_STORE_DESC_OFFSET then -EINVAL else 0)

def fwuMetadataSanityCheck (cfg : FwuConfig) : FwuProg Int := do
  let version ← loadLe VERSION 4
  if version ≠ FWU_METADATA_VERSION then pure (-EINVAL) else
  let active ← loadLe ACTIVE_INDEX 4
  if active ≥ cfg.banks then pure (-EINVAL) else
  let previous ← loadLe PREVIOUS_ACTIVE_INDEX 4
  if previous ≥ cfg.banks then pure (-EINVAL) else
  let size ← loadLe METADATA_SIZE 4
  if size > sizeofMetadata cfg ∨ size < FWU_FW_STORE_DESC_OFFSET then pure (-EINVAL) else
  if cfg.storeDesc then descriptorCheck cfg
  else do
    let descOffset ← loadLe DESC_OFFSET 2
    pure (if descOffset ≠ 0 then -EINVAL else 0)

/-! ## Loading -/

/-- The answers of `plat_fwu_set_metadata_image_source()`, `io_open()` and `io_read()`, and the
bytes the read put into the buffer. -/
structure LoadAnswer where
  setSource : Int
  ioOpen : Int
  ioRead : Int
  bytesRead : ℕ
  data : List UInt8

def fwuMetadataLoad (cfg : FwuConfig) (ans : LoadAnswer) : FwuProg Int :=
  if ans.setSource ≠ 0 then pure ans.setSource
  else if ans.ioOpen ≠ 0 then pure ans.ioOpen
  else do
    -- a read writes no more than it was asked for
    Prog.times (fun i => Prog.store i (ans.data.getD i 0)) (min ans.data.length (sizeofMetadata cfg))
    if ans.ioRead ≠ 0 then pure ans.ioRead
    else if sizeofMetadata cfg ≠ ans.bytesRead then pure (-1)
    else do
      let result ← fwuMetadataSanityCheck cfg
      if result ≠ 0 then pure result else fwuMetadataCrcCheck

/-- The two copies in turn; `panic()` when both fail. -/
def fwuInit (cfg : FwuConfig) (main backup : LoadAnswer) : FwuProg Unit := do
  let result ← fwuMetadataLoad cfg main
  if result ≠ 0 then
    let result ← fwuMetadataLoad cfg backup
    Prog.assert (result == 0)
  else pure ()

/-! ## Decisions -/

def fwuGetActiveBankState : FwuProg UInt8 := do
  let active ← loadLe ACTIVE_INDEX 4
  Prog.load (BANK_STATE + active)

/-- The loops over the banks, `n` of them from `i` on: one in the given state that is neither the
active nor the previously active one. -/
def otherBank (state : UInt8) : ℕ → ℕ → FwuProg (Option ℕ)
  | 0, _ => pure none
  | n + 1, i => do
    let active ← loadLe ACTIVE_INDEX 4
    let previous ← loadLe PREVIOUS_ACTIVE_INDEX 4
    if i = active ∨ i = previous then otherBank state n (i + 1)
    else do
      let s ← Prog.load (BANK_STATE + i)
      if s = state then pure (some i) else otherBank state n (i + 1)

def bankInState (cfg : FwuConfig) (state : UInt8) : FwuProg (Option ℕ) := do
  let previous ← loadLe PREVIOUS_ACTIVE_INDEX 4
  let s ← Prog.load (BANK_STATE + previous)
  if s = state then pure (some previous) else otherBank state cfg.banks 0

def fwuGetAlternateBootBank (cfg : FwuConfig) : FwuProg ℕ := do
  match ← bankInState cfg FWU_BANK_STATE_ACCEPTED with
  | some i => pure i
  | none =>
    match ← bankInState cfg FWU_BANK_STATE_VALID with
    | some i => pure i
    | none => pure INVALID_BOOT_IDX

inductive ImageSource where
  | bank (active : ℕ)
  | guid (imgGuid : List UInt8) (active : ℕ)
  deriving DecidableEq, Repr

/-- The loop over the image entries at `entry`, `n` of them. -/
def fipEntry (cfg : FwuConfig) (fipImgTypeGuid : List UInt8) : ℕ → ℕ → FwuProg (Option ImageSource)
  | 0, _ => pure none
  | n + 1, entry => do
    let typeGuid ← loadBytes entry GUID_SIZE
    if typeGuid = fipImgTypeGuid then do
      let active ← loadLe ACTIVE_INDEX 4
      let imgGuid ← loadBytes (entry + IMG_BANK_INFO + active * bankInfoSize) GUID_SIZE
      pure (some (.guid imgGuid active))
    else fipEntry cfg fipImgTypeGuid n (entry + imageEntrySize cfg)

def armSetFipAddr (cfg : FwuConfig) (active : ℕ) : FwuProg ImageSource := do
  Prog.assert (decide (active < cfg.banks))
  pure (.bank active)

def platFwuSetImagesSource (cfg : FwuConfig) (fipImgTypeGuid : List UInt8) : FwuProg ImageSource := do
  let descOffset ← loadLe DESC_OFFSET 2
  if descOffset = 0 then do
    let active ← loadLe ACTIVE_INDEX 4
    armSetFipAddr cfg active
  else
    match ← fipEntry cfg fipImgTypeGuid cfg.images (descOffset + IMG_ENTRY) with
    | some source => pure source
    | none => do
      let active ← loadLe ACTIVE_INDEX 4
      armSetFipAddr cfg active

end TrustedFirmware.Fwu

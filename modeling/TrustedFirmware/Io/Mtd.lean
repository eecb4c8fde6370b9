import TrustedFirmware.Io.Nand
import TrustedFirmware.Foundations.Runs

/-! # Reading an MTD entity

`io_mtd.c` over NAND: a position in an opened region is kept with an extra offset for the bad blocks
before it. Opening and seeking set the extra offset; a read skips bad blocks on its own and moves the
position only. -/
namespace TrustedFirmware.Io
open Libc ByteMemory Runs
set_option autoImplicit false

/-- `mtd_dev_state_t` of an opened entity. Beside it stand the position that the last open or successful
seek went to, and what was read so far: position, length and bytes. -/
structure Mtd where
  base : ℕ
  pos : ℕ
  extraOffset : ℕ
  sought : ℕ
  returned : List (ℕ × ℕ × List UInt8)
deriving DecidableEq

namespace Mtd

/-- `mtd_add_extra_offset()`; the position is passed in 32 bits. -/
def addExtraOffset (d : Nand) (cur : Mtd) : Except Int ℕ := d.nandSeekBb cur.base (cur.pos % 2 ^ 32)

def mtdOpen (d : Nand) (region : ℕ) : Except Int Mtd :=
  let cur : Mtd := ⟨region, 0, 0, 0, []⟩
  match addExtraOffset d cur with
  | .error ret => .error ret
  | .ok extraOffset => .ok { cur with base := (cur.base + extraOffset) % 2 ^ 64 }

inductive SeekMode where
  | set
  | cur
  | other

/-- The end of `mtd_seek()`. If the blocks cannot be counted, the position has changed already. -/
def seekTo (d : Nand) (cur : Mtd) : Int × Mtd :=
  match addExtraOffset d cur with
  | .error ret => (ret, cur)
  | .ok extraOffset => (0, { cur with extraOffset, sought := cur.pos })

/-- `mtd_seek()`; the size of the device is the one that the NAND has told when it was initialised. -/
def mtdSeek (d : Nand) (cur : Mtd) (mode : SeekMode) (offset : ℕ) : Int × Mtd :=
  match mode with
  | .set => if offset ≥ d.size then (- EINVAL, cur) else seekTo d { cur with pos := offset }
  | .cur =>
    if (cur.base + cur.pos + offset) % 2 ^ 64 ≥ d.size ∨
        (cur.base + cur.pos + offset) % 2 ^ 64 < (cur.base + cur.pos) % 2 ^ 64 then (- EINVAL, cur)
    else seekTo d { cur with pos := (cur.pos + offset) % 2 ^ 64 }
  | .other => (- EINVAL, cur)

/-- `mtd_read()`; the offset is passed in 32 bits. `none` where `nand_read()` does not come back, or with
another number of bytes, which an assertion stops. -/
def mtdRead (d : Nand) (fuel : ℕ) (cur : Mtd) (length : ℕ) : Option (Int × Mtd) :=
  if (cur.base + cur.pos + length) % 2 ^ 64 > d.size then some (- EINVAL, cur)
  else
    match d.nandRead fuel ((cur.base + cur.pos + cur.extraOffset) % 2 ^ 32) length with
    | none => none
    | some (ret, bytes) =>
      if ret < 0 then some (ret, cur)
      else if bytes.length ≠ length then none
      else some (0, { cur with
        pos := (cur.pos + bytes.length) % 2 ^ 64
        returned := cur.returned ++ [(cur.pos, length, bytes)] })

/-- A call on the entity. The offset is a `signed long long` that is not negative, and a length of 0 is
stopped by an assertion. -/
inductive Call where
  | seek (mode : SeekMode) (offset : ℕ) (small : offset < 2 ^ 63)
  | read (length : ℕ) (pos : 0 < length)

def call (d : Nand) (fuel : ℕ) (cur : Mtd) : Call → Option Mtd
  | .seek mode offset _ => some (mtdSeek d cur mode offset).2
  | .read length _ => (mtdRead d fuel cur length).map Prod.snd

/-! ## What is read -/

def Slices (d : Nand) (region : ℕ) (cur : Mtd) : Prop :=
  ∀ pos length bytes, (pos, length, bytes) ∈ cur.returned →
    bytes = readBytes (d.goodBytes (region / d.blockSize)) pos length

/-- Where a read starts: as far behind the last byte before the position that was sought as the
position is, bad blocks or not. -/
noncomputable def startAt (d : Nand) (region : ℕ) (cur : Mtd) : ℕ :=
  d.address (region / d.blockSize) (cur.sought - 1) + cur.pos - (cur.sought - 1)

/-- The block that a read starts in has as many good ones before it, from the region on, as the position
has blocks: no bad block lies between the position that was sought and it. -/
def RightBlock (d : Nand) (region : ℕ) (cur : Mtd) : Prop :=
  Nat.count d.Good (startAt d region cur / d.blockSize) =
    Nat.count d.Good (region / d.blockSize) + cur.pos / d.blockSize

/-- Of the calls that the driver does not refuse, a seek goes to a position of 32 bits, and a read starts
at an offset of 32 bits in the right block and would end in the device if no bad block came. -/
def Meets (d : Nand) (region : ℕ) (cur : Mtd) : Call → Prop
  | .seek .set offset _ => offset < d.size → offset < 2 ^ 32
  | .seek .cur offset _ =>
    d.address (region / d.blockSize) 0 + cur.pos + offset < d.size → cur.pos + offset < 2 ^ 32
  | .seek .other _ _ => True
  | .read length _ => (d.address (region / d.blockSize) 0 + cur.pos + length) % 2 ^ 64 ≤ d.size →
    RightBlock d region cur ∧ startAt d region cur < 2 ^ 32 ∧
      startAt d region cur + length ≤ d.maxBlock * d.blockSize

variable {d : Nand} {region fuel : ℕ}

/-- What holds between the calls: the base is the first good block of the region, and the extra offset
leads from it to the block of the last byte before the position that was sought. -/
structure Inv (d : Nand) (region : ℕ) (cur : Mtd) : Prop where
  base_dvd : d.blockSize ∣ cur.base
  base_lt : cur.base < d.size
  base_good : d.Good (cur.base / d.blockSize)
  base_count : Nat.count d.Good (cur.base / d.blockSize) = Nat.count d.Good (region / d.blockSize)
  extra_dvd : d.blockSize ∣ cur.extraOffset
  sought_good : d.Good ((cur.base + (cur.sought - 1) + cur.extraOffset) / d.blockSize)
  sought_count : Nat.count d.Good ((cur.base + (cur.sought - 1) + cur.extraOffset) / d.blockSize) =
    Nat.count d.Good (region / d.blockSize) + (cur.sought - 1) / d.blockSize
  pos_le : cur.pos ≤ d.size
  slices : Slices d region cur

section
variable {cur : Mtd}

theorem Inv.mod_eq (h : Inv d region cur) (n : ℕ) :
    (cur.base + n + cur.extraOffset) % d.blockSize = n % d.blockSize := by
  obtain ⟨b, hb⟩ := h.base_dvd
  obtain ⟨e, he⟩ := h.extra_dvd
  rw [hb, he, Nat.add_mul_mod_self_left, Nat.mul_add_mod_self_left]

theorem Inv.base_eq (h : Inv d region cur) : d.address (region / d.blockSize) 0 = cur.base := by
  rw [Nand.address_of_count h.base_good (by rw [h.base_count, Nat.zero_div, Nat.add_zero]), Nat.zero_mod,
    Nat.add_zero, Nat.div_mul_cancel h.base_dvd]

theorem Inv.startAt_eq (h : Inv d region cur) :
    startAt d region cur = cur.base + cur.pos + cur.extraOffset := by
  have hdiv := Nat.div_add_mod' (cur.base + (cur.sought - 1) + cur.extraOffset) d.blockSize
  rw [h.mod_eq] at hdiv
  rw [startAt, Nand.address_of_count h.sought_good h.sought_count, hdiv]
  omega

/-- A read right after an open or a seek starts in the right block, wherever the bad blocks are. -/
theorem Inv.rightBlock (h : Inv d region cur) (hsought : cur.sought = cur.pos) :
    RightBlock d region cur := by
  have hcount := h.sought_count
  have hgood := h.sought_good
  rw [RightBlock, h.startAt_eq]
  rw [hsought] at hcount hgood
  cases hpos : cur.pos with
  | zero =>
    rw [hpos] at hcount
    exact hcount
  | succ p =>
    rw [hpos, Nat.add_sub_cancel] at hcount hgood
    have hsucc := h.mod_eq (p + 1)
    rw [show cur.base + (p + 1) + cur.extraOffset = cur.base + p + cur.extraOffset + 1 by omega] at hsucc ⊢
    -- The byte of the position and the one before it are in one block, or the block has ended.
    have hiff : d.blockSize ∣ cur.base + p + cur.extraOffset + 1 ↔ d.blockSize ∣ p + 1 := by
      rw [Nat.dvd_iff_mod_eq_zero, Nat.dvd_iff_mod_eq_zero, hsucc]
    rw [Nat.succ_div, Nat.succ_div]
    by_cases hend : d.blockSize ∣ p + 1
    · rw [if_pos (hiff.mpr hend), if_pos hend, Nat.count_succ, if_pos hgood, hcount, Nat.add_assoc]
    · rw [if_neg (mt hiff.mp hend), if_neg hend, Nat.add_zero, hcount, Nat.add_zero]

theorem Inv.goodBytes (h : Inv d region cur) (hright : RightBlock d region cur) (i : ℕ) :
    d.goodBytes (startAt d region cur / d.blockSize) (startAt d region cur % d.blockSize + i) =
      d.goodBytes (region / d.blockSize) (cur.pos + i) := by
  have hmod : startAt d region cur % d.blockSize = cur.pos % d.blockSize := by
    rw [h.startAt_eq, h.mod_eq]
  have hpos := Nat.div_add_mod cur.pos d.blockSize
  rw [Nand.goodBytes, Nand.goodBytes, Nand.address, Nand.address, hright, hmod]
  rw [show cur.pos + i = cur.pos % d.blockSize + i + d.blockSize * (cur.pos / d.blockSize) by omega,
    Nat.add_mul_div_left _ _ d.blockSize_pos, Nat.add_mul_mod_self_left, Nat.add_assoc,
    Nat.add_comm (cur.pos / d.blockSize)]

end

section Calls
variable {cur : Mtd} (hpages : d.size ≤ 2 ^ 31 * d.pageSize)
include hpages

theorem mtdOpen_inv (hregion : d.blockSize ∣ region) (hin : region < d.size)
    (h : mtdOpen d region = .ok cur) : Inv d region cur := by
  rw [mtdOpen] at h
  split at h
  · cases h
  next e he =>
    obtain ⟨hdvd, x, hx, hgood, hlt, hcount⟩ :=
      Nand.nandSeekBb_ok he hpages hregion hin (by rw [Nat.zero_mod]; exact Nat.zero_le _)
    simp only [Nat.zero_mod, Nat.zero_sub, Nat.add_zero, Nat.zero_div] at hx hcount
    have hbase : region + e < d.size := by
      have hmul := d.maxBlock_mul_le
      rw [← hx, Nat.div_lt_iff_lt_mul d.blockSize_pos] at hlt
      omega
    cases h
    rw [Nat.mod_eq_of_lt ((hbase.trans (Nand.size_lt hpages)).trans (by decide))]
    subst hx
    exact ⟨Nat.dvd_add hregion hdvd, hbase, hgood, hcount, Nat.dvd_zero _, by simpa using hgood,
      by simpa using hcount, Nat.zero_le _, nofun⟩

theorem seekTo_inv (h : Inv d region cur) (hpos : cur.pos < 2 ^ 32) : Inv d region (seekTo d cur).2 := by
  rw [seekTo]
  split
  · exact h
  next e he =>
    rw [addExtraOffset, Nat.mod_eq_of_lt hpos] at he
    obtain ⟨hdvd, x, rfl, hgood, -, hcount⟩ :=
      Nand.nandSeekBb_ok he hpages h.base_dvd h.base_lt h.pos_le
    rw [h.base_count] at hcount
    exact { h with extra_dvd := hdvd, sought_good := hgood, sought_count := hcount }

theorem mtdSeek_inv (h : Inv d region cur) (mode : SeekMode) {offset : ℕ} {hoffset : offset < 2 ^ 63}
    (hmeets : Meets d region cur (.seek mode offset hoffset)) :
    Inv d region (mtdSeek d cur mode offset).2 := by
  have hsize := Nand.size_lt hpages
  have hbase := h.base_lt
  have hpos := h.pos_le
  cases mode with
  | set =>
    rw [mtdSeek]
    split
    · exact h
    next hlt =>
      exact seekTo_inv hpages { h with pos_le := (not_le.mp hlt).le } (hmeets (not_le.mp hlt))
  | cur =>
    rw [mtdSeek]
    split
    · exact h
    next hroom =>
      -- The sum does not wrap around, or it would be smaller than the base and the position.
      have hsum : cur.base + cur.pos + offset < d.size := by omega
      rw [Meets, h.base_eq] at hmeets
      rw [Nat.mod_eq_of_lt (by omega)]
      exact seekTo_inv hpages { h with pos_le := by dsimp only; omega } (hmeets hsum)
  | other => exact h

/-- A read that meets the condition keeps what holds, and comes back unless a page gives a positive
error. -/
theorem mtdRead_inv (h : Inv d region cur) (hfuel : 2 ^ 32 ≤ fuel) {length : ℕ} {hlen : 0 < length}
    (hmeets : Meets d region cur (.read length hlen)) :
    (∀ r, mtdRead d fuel cur length = some r → Inv d region r.2) ∧
      ((∀ page, d.readPage page ≤ 0) → (mtdRead d fuel cur length).isSome) := by
  rw [mtdRead]
  split
  · exact ⟨fun r hr => Option.some.inj hr ▸ h, fun _ => rfl⟩
  next hroom =>
    rw [Meets, h.base_eq] at hmeets
    obtain ⟨hright, hstart, hin⟩ := hmeets (by omega)
    have hmul := d.maxBlock_mul_le
    have hsize := Nand.size_lt hpages
    have hbytes := h.goodBytes hright
    rw [h.startAt_eq] at hstart hin hbytes
    rw [Nat.mod_eq_of_lt hstart]
    obtain ⟨⟨ret, bytes⟩, hread, ⟨k, hk, hbs, hall⟩, hcode⟩ :=
      Nand.nandRead_reads hlen hfuel hpages hin
    rw [hread]
    dsimp only at hbs hall hcode ⊢
    have hcount : bytes.length = k := by rw [hbs, readBytes, List.length_map, List.length_range]
    split
    · exact ⟨fun r hr => Option.some.inj hr ▸ h, fun _ => rfl⟩
    next hret =>
      split
      · next hne =>
        refine ⟨fun r hr => (Option.some_ne_none r hr.symm).elim, fun hcodes => absurd (hall ?_) (hcount ▸ hne)⟩
        have := hcode hcodes
        omega
      · next hne =>
        refine ⟨fun r hr => ?_, fun _ => rfl⟩
        obtain rfl := Option.some.inj hr
        refine { h with pos_le := ?_, slices := fun pos n bs hmem => ?_ }
        · dsimp only
          omega
        · rcases List.mem_append.mp hmem with hmem | hmem
          · exact h.slices pos n bs hmem
          · obtain ⟨rfl, rfl, rfl⟩ : pos = cur.pos ∧ n = length ∧ bs = bytes := by simpa using hmem
            rw [hbs, ← hcount, not_not.mp hne]
            exact readBytes_congr fun i _ => hbytes i

end Calls

/-- Blocks of four bytes, of which the second one is bad. -/
def oneBad : Nand where
  blockSize := 4
  pageSize := 2
  size := 32
  blockIsBad b := if b = 1 then 1 else 0
  readPage _ := 0
  data i := UInt8.ofNat i
  scratchSize := 2
  pageSize_pos := by decide
  blockSize_pos := by decide
  blockSize_lt := by decide
  page_dvd := by decide

theorem oneBad_open : mtdOpen oneBad 0 = .ok ⟨0, 0, 0, 0, []⟩ := by decide +kernel

theorem oneBad_read : call oneBad (2 ^ 32) ⟨0, 0, 0, 0, []⟩ (.read 8 (by decide)) =
    some ⟨0, 8, 0, 0, [(0, 8, [0, 1, 2, 3, 8, 9, 10, 11])]⟩ := by decide +kernel

end Mtd

end TrustedFirmware.Io

import TrustedFirmware.Common
import TrustedFirmware.Foundations.ByteMemory
import Mathlib.Data.Nat.Nth

/-! # Reading NAND across bad blocks

`drivers/mtd/nand/core.c`: a read goes on in the next block where it meets a bad one, and a seek counts
the bad blocks up to a position. What is read is the stream of the good blocks from the block on that
the read starts in, as long as the read stays in the device. Blocks and pages are counted in 32 bits,
bytes in 64. -/
namespace TrustedFirmware.Io
open Libc ByteMemory
set_option autoImplicit false

/-- `struct nand_device`, with what its two functions answer for a block and for a page, the bytes of
the pages one after the other, and the size of the scratch buffer. -/
structure Nand where
  blockSize : ℕ
  pageSize : ℕ
  size : ℕ
  blockIsBad : ℕ → Int
  readPage : ℕ → Int
  data : Bytes
  scratchSize : ℕ
  pageSize_pos : 0 < pageSize
  blockSize_pos : 0 < blockSize
  blockSize_lt : blockSize < 2 ^ 32
  page_dvd : pageSize ∣ blockSize

variable {d : Nand}

namespace Nand

def nbPages (d : Nand) : ℕ := d.blockSize / d.pageSize

def maxBlock (d : Nand) : ℕ := d.size / d.blockSize % 2 ^ 32

def Good (d : Nand) (block : ℕ) : Prop := d.blockIsBad block ≠ 1

instance (d : Nand) : DecidablePred d.Good := fun block =>
  inferInstanceAs (Decidable (d.blockIsBad block ≠ 1))

/-- Where the good blocks from a block on, one after the other, have their byte `t`. -/
noncomputable def address (d : Nand) (block t : ℕ) : ℕ :=
  Nat.nth d.Good (Nat.count d.Good block + t / d.blockSize) * d.blockSize + t % d.blockSize

noncomputable def goodBytes (d : Nand) (block : ℕ) : Bytes := fun t => d.data (d.address block t)

theorem address_of_count {block x t : ℕ} (hgood : d.Good x)
    (hcount : Nat.count d.Good x = Nat.count d.Good block + t / d.blockSize) :
    d.address block t = x * d.blockSize + t % d.blockSize := by
  rw [address, ← hcount, Nat.nth_count hgood]

theorem goodBytes_first {block t : ℕ} (hgood : d.Good block) (ht : t < d.blockSize) :
    d.goodBytes block t = d.data (block * d.blockSize + t) := by
  rw [goodBytes, address_of_count hgood (by rw [Nat.div_eq_of_lt ht, Nat.add_zero]), Nat.mod_eq_of_lt ht]

theorem goodBytes_next {block : ℕ} (hgood : d.Good block) (t : ℕ) :
    d.goodBytes block (d.blockSize + t) = d.goodBytes (block + 1) t := by
  rw [goodBytes, goodBytes, address, address, Nat.count_succ, if_pos hgood,
    Nat.add_div_left _ d.blockSize_pos, Nat.add_mod_left, Nat.add_right_comm, Nat.add_assoc]

theorem goodBytes_skip {block : ℕ} (hbad : ¬ d.Good block) :
    d.goodBytes block = d.goodBytes (block + 1) := by
  funext t
  rw [goodBytes, goodBytes, address, address, Nat.count_succ, if_neg hbad, Nat.add_zero]

theorem nbPages_mul (d : Nand) : d.nbPages * d.pageSize = d.blockSize :=
  Nat.div_mul_cancel d.page_dvd

theorem maxBlock_lt (d : Nand) : d.maxBlock < 2 ^ 32 := Nat.mod_lt _ (by omega)

theorem maxBlock_mul_le (d : Nand) : d.maxBlock * d.blockSize ≤ d.size :=
  (Nat.mul_le_mul_right _ (Nat.mod_le _ _)).trans (Nat.div_mul_le_self _ _)

section Sizes
variable (hpages : d.size ≤ 2 ^ 31 * d.pageSize)
include hpages

theorem size_le : d.size ≤ 2 ^ 31 * d.blockSize :=
  hpages.trans (Nat.mul_le_mul_left _ (Nat.le_of_dvd d.blockSize_pos d.page_dvd))

theorem size_lt : d.size < 2 ^ 63 := by
  have hle := size_le hpages
  have hlt := d.blockSize_lt
  omega

/-- The page numbers of the device fit into 32 bits. -/
theorem maxBlock_mul_nbPages_le : d.maxBlock * d.nbPages ≤ 2 ^ 31 := by
  refine Nat.le_of_mul_le_mul_right ?_ d.pageSize_pos
  rw [Nat.mul_assoc, d.nbPages_mul]
  exact d.maxBlock_mul_le.trans hpages

end Sizes

/-! ## Reading -/

/-- The loop over `n` pages of a block: the bytes, and `start_offset` and `length` after it. An error
comes with the bytes that were read before it. -/
def readPages (d : Nand) (block : ℕ) :
    ℕ → ℕ → ℕ → ℕ → Except (Int × List UInt8) (List UInt8 × ℕ × ℕ)
  | 0, _, startOffset, length => .ok ([], startOffset, length)
  | n + 1, page, startOffset, length =>
    let number := (block * d.nbPages + page) % 2 ^ 32
    if d.readPage number ≠ 0 then .error (d.readPage number, [])
    else
      -- Through the scratch buffer, or the whole page into the buffer itself.
      let bytesRead := if startOffset ≠ 0 ∨ length < d.pageSize then
        min (d.pageSize - startOffset) length else d.pageSize
      let bytes := readBytes d.data (number * d.pageSize + startOffset) bytesRead
      if length - bytesRead = 0 then .ok (bytes, 0, length - bytesRead)
      else
        match readPages d block n (page + 1) 0 (length - bytesRead) with
        | .error (ret, rest) => .error (ret, bytes ++ rest)
        | .ok (rest, startOffset, length) => .ok (bytes ++ rest, startOffset, length)

/-- The loop over the blocks, for at most `fuel` rounds; it need not end where the counters wrap
around. -/
def readBlocks (d : Nand) : ℕ → ℕ → ℕ → ℕ → ℕ → ℕ → Option (Int × List UInt8)
  | 0, _, _, _, _, _ => none
  | fuel + 1, block, endBlock, pageStart, startOffset, length =>
    if block ≤ endBlock then
      if d.blockIsBad block < 0 then some (d.blockIsBad block, [])
      else if d.blockIsBad block = 1 then
        if (block + 1) % 2 ^ 32 < d.maxBlock ∧ (endBlock + 1) % 2 ^ 32 < d.maxBlock then
          readBlocks d fuel ((block + 1) % 2 ^ 32) ((endBlock + 1) % 2 ^ 32) pageStart startOffset length
        else some (- Libc.EIO, [])
      else
        match d.readPages block (d.nbPages - pageStart) pageStart startOffset length with
        | .error stop => some stop
        | .ok (bytes, startOffset, length) =>
          (readBlocks d fuel ((block + 1) % 2 ^ 32) endBlock 0 startOffset length).map
            fun r => (r.1, bytes ++ r.2)
    else some (0, [])

/-- `nand_read()`: its return value and what it has read. -/
def nandRead (d : Nand) (fuel offset length : ℕ) : Option (Int × List UInt8) :=
  let startOffset := offset % d.pageSize
  if (startOffset ≠ 0 ∨ length % d.pageSize ≠ 0) ∧ d.scratchSize < d.pageSize then some (- EINVAL, [])
  else
    readBlocks d fuel (offset / d.blockSize)
      ((offset + length + 2 ^ 64 - 1) % 2 ^ 64 / d.blockSize % 2 ^ 32)
      (offset % d.blockSize / d.pageSize) startOffset length

/-- The end of a read of `length` bytes at `a`: what was read are the bytes from there on, all of them
if it succeeded, and only a page gives a positive error. -/
structure Ended (d : Nand) (m : Bytes) (a length : ℕ) (r : Int × List UInt8) : Prop where
  bytes : ∃ k ≤ length, r.2 = readBytes m a k ∧ (r.1 = 0 → k = length)
  code : (∀ page, d.readPage page ≤ 0) → r.1 ≤ 0

theorem Ended.nothing {m : Bytes} {a length : ℕ} {ret : Int} (hret : ret < 0) :
    d.Ended m a length (ret, []) :=
  ⟨⟨0, Nat.zero_le _, rfl, fun h => absurd h hret.ne⟩, fun _ => hret.le⟩

/-- What was read before is the begin of what has been read behind it. -/
theorem Ended.append {m m' : Bytes} {a b k length n : ℕ} {ret : Int} {rest : List UInt8}
    (h : d.Ended m' b n (ret, rest)) (hm : ∀ i < n, m (a + k + i) = m' (b + i)) (hn : k + n = length) :
    d.Ended m a length (ret, readBytes m a k ++ rest) := by
  obtain ⟨⟨j, hj, hbytes, hall⟩, hcode⟩ := h
  refine ⟨⟨k + j, by omega, ?_, fun h0 => ?_⟩, hcode⟩
  · rw [readBytes_add, readBytes_congr fun i hi => hm i (Nat.lt_of_lt_of_le hi hj)]
    exact congrArg _ hbytes
  · rw [hall h0, hn]

/-- The pages of a block give its bytes up to the end of the block or of the read. -/
theorem readPages_reads {block n page startOffset length : ℕ} (hstart : startOffset < d.pageSize)
    (hn : n = 0 → startOffset = 0) (hsmall : block * d.nbPages + page + n ≤ 2 ^ 32) :
    d.readPages block n page startOffset length =
        .ok (readBytes d.data ((block * d.nbPages + page) * d.pageSize + startOffset)
          (min length (n * d.pageSize - startOffset)), 0, length - (n * d.pageSize - startOffset)) ∨
      ∃ stop, d.readPages block n page startOffset length = .error stop ∧ stop.1 ≠ 0 ∧
        d.Ended d.data ((block * d.nbPages + page) * d.pageSize + startOffset)
          (min length (n * d.pageSize - startOffset)) stop := by
  induction n generalizing page startOffset length with
  | zero =>
    left
    simp [readPages, hn rfl, readBytes]
  | succ n ih =>
    have hread : (if startOffset ≠ 0 ∨ length < d.pageSize then min (d.pageSize - startOffset) length
        else d.pageSize) = min length (d.pageSize - startOffset) := by
      split <;> omega
    rw [readPages, hread, Nat.mod_eq_of_lt (by omega)]
    dsimp only
    rw [Nat.succ_mul]
    by_cases hret : d.readPage (block * d.nbPages + page) = 0
    swap
    · rw [if_pos hret]
      exact .inr ⟨_, rfl, hret, ⟨0, Nat.zero_le _, rfl, fun h => absurd h hret⟩, fun h => h _⟩
    rw [if_neg (not_not.mpr hret)]
    split
    · left
      congr 3
      · omega
      · omega
    · -- The page is read to its end, and the next one from its begin.
      have hall : min length (d.pageSize - startOffset) = d.pageSize - startOffset := by omega
      have hnext : ∀ i, d.data ((block * d.nbPages + page) * d.pageSize + startOffset +
          (d.pageSize - startOffset) + i) =
          d.data ((block * d.nbPages + (page + 1)) * d.pageSize + 0 + i) := fun i => by
        rw [← Nat.add_assoc (block * d.nbPages), Nat.succ_mul]
        congr 1
        omega
      rw [hall]
      rcases @ih (page + 1) 0 (length - (d.pageSize - startOffset)) d.pageSize_pos (fun _ => rfl)
        (by omega) with hok | ⟨⟨ret, rest⟩, herr, hne, hend⟩
      · left
        rw [hok]
        dsimp only
        rw [← readBytes_congr fun i _ => hnext i, ← readBytes_add]
        congr 3
        · omega
        · omega
      · right
        rw [herr]
        exact ⟨_, rfl, hne, hend.append (fun i _ => hnext i) (by omega)⟩

/-- The same in terms of the good blocks, for the pages of one of them from the byte `o` of it on. -/
theorem readPages_good {block pageStart startOffset length o : ℕ} (hgood : d.Good block)
    (hblock : block < d.maxBlock) (hpages : d.size ≤ 2 ^ 31 * d.pageSize) (hpage : pageStart < d.nbPages)
    (hstart : startOffset < d.pageSize) (ho : pageStart * d.pageSize + startOffset = o) :
    o < d.blockSize ∧
    (d.readPages block (d.nbPages - pageStart) pageStart startOffset length =
        .ok (readBytes (d.goodBytes block) o (min length (d.blockSize - o)), 0, length - (d.blockSize - o)) ∨
      ∃ stop, d.readPages block (d.nbPages - pageStart) pageStart startOffset length = .error stop ∧
        d.Ended (d.goodBytes block) o length stop) := by
  have hmul := d.nbPages_mul
  have hinside : o < d.blockSize := by
    have hmul' := Nat.mul_le_mul_right d.pageSize hpage
    rw [hmul, Nat.succ_mul] at hmul'
    omega
  have hnumber : block * d.nbPages + d.nbPages ≤ 2 ^ 31 := by
    rw [← Nat.succ_mul]
    exact (Nat.mul_le_mul_right _ hblock).trans (maxBlock_mul_nbPages_le hpages)
  have hread := @readPages_reads d block (d.nbPages - pageStart) pageStart startOffset length hstart
    (by omega) (by omega)
  rw [Nat.sub_mul, hmul, Nat.add_mul, Nat.mul_assoc, hmul,
    show d.blockSize - pageStart * d.pageSize - startOffset = d.blockSize - o by omega,
    show block * d.blockSize + pageStart * d.pageSize + startOffset = block * d.blockSize + o by
      omega] at hread
  have hhere : ∀ i, i < d.blockSize - o →
      d.data (block * d.blockSize + o + i) = d.goodBytes block (o + i) := fun i hi => by
    rw [goodBytes_first hgood (by omega), Nat.add_assoc]
  refine ⟨hinside, hread.imp (fun hok => ?_) fun ⟨stop, herr, hne, ⟨k, hk, hbytes, _⟩, hcode⟩ => ?_⟩
  · rw [hok, readBytes_congr fun i hi => hhere i (by omega)]
  · refine ⟨stop, herr, ⟨k, by omega, ?_, fun h => absurd h hne⟩, hcode⟩
    rw [hbytes]
    exact readBytes_congr fun i hi => hhere i (by omega)

theorem readBlocks_reads {fuel block endBlock pageStart startOffset length : ℕ}
    (hblock : block ≤ d.maxBlock) (hmax : endBlock < d.maxBlock) (hfuel : d.maxBlock < block + fuel)
    (hpages : d.size ≤ 2 ^ 31 * d.pageSize) (hpage : pageStart < d.nbPages) (hstart : startOffset < d.pageSize)
    (hend : 0 < length →
      endBlock = block + (pageStart * d.pageSize + startOffset + length - 1) / d.blockSize)
    (hzero : length = 0 → endBlock < block) :
    ∃ r, d.readBlocks fuel block endBlock pageStart startOffset length = some r ∧
      d.Ended (d.goodBytes block) (pageStart * d.pageSize + startOffset) length r := by
  have hlt := d.maxBlock_lt
  induction fuel generalizing block endBlock pageStart startOffset length with
  | zero => omega
  | succ fuel ih =>
    rw [readBlocks]
    by_cases hle : block ≤ endBlock
    swap
    · have hlen : length = 0 := by
        by_contra hlen
        rw [hend (by omega)] at hle
        exact hle (Nat.le_add_right _ _)
      rw [if_neg hle, hlen]
      exact ⟨_, rfl, ⟨0, le_rfl, rfl, fun _ => rfl⟩, fun _ => le_rfl⟩
    rw [if_pos hle, Nat.mod_eq_of_lt (by omega : block + 1 < 2 ^ 32),
      Nat.mod_eq_of_lt (by omega : endBlock + 1 < 2 ^ 32)]
    by_cases hneg : d.blockIsBad block < 0
    · rw [if_pos hneg]
      exact ⟨_, rfl, .nothing hneg⟩
    rw [if_neg hneg]
    by_cases hbad : d.blockIsBad block = 1
    · rw [if_pos hbad]
      split
      · next hroom =>
        rw [goodBytes_skip (not_not.mpr hbad)]
        exact ih hroom.1.le hroom.2 (by omega) hpage hstart
          (fun hlen => by rw [hend hlen]; omega) (fun hlen => by have := hzero hlen; omega)
      · exact ⟨_, rfl, .nothing (by decide)⟩
    rw [if_neg hbad]
    have hlen : 0 < length := by
      by_contra hlen
      have := hzero (by omega)
      omega
    generalize ho : pageStart * d.pageSize + startOffset = o at hend ⊢
    obtain ⟨hinside, hok | ⟨stop, herr, hended⟩⟩ :=
      @readPages_good d block pageStart startOffset length o hbad (by omega) hpages hpage hstart ho
    · rw [hok]
      -- The read goes on at the begin of the next block.
      obtain ⟨⟨ret, rest⟩, hrest, hended⟩ := @ih (block + 1) endBlock 0 0 (length - (d.blockSize - o))
        (by omega) hmax (by omega) (by omega) d.pageSize_pos (fun hlen' => by
          rw [hend hlen, show o + length - 1 =
            d.blockSize + (0 * d.pageSize + 0 + (length - (d.blockSize - o)) - 1) by omega,
            Nat.add_div_left _ d.blockSize_pos]
          omega) (fun hlen' => by
          rw [hend hlen, Nat.div_eq_of_lt (by omega)]
          omega)
      dsimp only
      rw [hrest]
      refine ⟨_, rfl, hended.append (fun i hi => ?_) (by omega)⟩
      rw [Nat.zero_mul, Nat.zero_add, ← goodBytes_next hbad]
      congr 1
      omega
    · rw [herr]
      exact ⟨_, rfl, hended⟩

/-- A read that is inside the device comes back, and what it has read is the stream of the good blocks
from the block of the offset on. -/
theorem nandRead_reads {fuel offset length : ℕ} (hlen : 0 < length) (hfuel : 2 ^ 32 ≤ fuel)
    (hpages : d.size ≤ 2 ^ 31 * d.pageSize) (hin : offset + length ≤ d.maxBlock * d.blockSize) :
    ∃ r, d.nandRead fuel offset length = some r ∧
      d.Ended (d.goodBytes (offset / d.blockSize)) (offset % d.blockSize) length r := by
  have hoffset : offset % d.blockSize / d.pageSize * d.pageSize + offset % d.pageSize =
      offset % d.blockSize := by
    rw [← Nat.mod_mod_of_dvd offset d.page_dvd, Nat.mul_comm]
    exact Nat.div_add_mod _ _
  have hlt := d.maxBlock_lt
  have hmul := d.maxBlock_mul_le
  have hsize := size_lt hpages
  have hlast : (offset + length - 1) / d.blockSize < d.maxBlock := by
    rw [Nat.div_lt_iff_lt_mul d.blockSize_pos]
    omega
  have hfirst : offset / d.blockSize ≤ (offset + length - 1) / d.blockSize :=
    Nat.div_le_div_right (by omega)
  have hrounds : d.maxBlock < offset / d.blockSize + fuel :=
    (hlt.trans_le hfuel).trans_le (Nat.le_add_left _ _)
  rw [nandRead]
  split
  · exact ⟨_, rfl, .nothing (by decide)⟩
  rw [show (offset + length + 2 ^ 64 - 1) % 2 ^ 64 = offset + length - 1 by omega,
    Nat.mod_eq_of_lt (hlast.trans hlt)]
  have hpage : offset % d.blockSize / d.pageSize < d.nbPages := by
    rw [Nat.div_lt_iff_lt_mul d.pageSize_pos, nbPages_mul]
    exact Nat.mod_lt _ d.blockSize_pos
  have hread := readBlocks_reads (hfirst.trans hlast.le) hlast hrounds hpages hpage
    (Nat.mod_lt offset d.pageSize_pos) (fun _ => ?_) (fun h0 => absurd h0 hlen.ne')
  · rwa [hoffset] at hread
  · rw [hoffset]
    conv_lhs => rw [← Nat.div_add_mod offset d.blockSize]
    rw [show d.blockSize * (offset / d.blockSize) + offset % d.blockSize + length - 1 =
      offset % d.blockSize + length - 1 + d.blockSize * (offset / d.blockSize) by omega,
      Nat.add_mul_div_left _ _ d.blockSize_pos, Nat.add_comm]

/-! ## Seeking -/

/-- The loop of `nand_seek_bb()`: the number of bad blocks. The counters stay below the number of
blocks, so they do not wrap around. -/
def seekBlocks (d : Nand) (block offsetBlock countBb : ℕ) : Except Int ℕ :=
  if block ≤ offsetBlock then
    if offsetBlock ≥ d.maxBlock then .error (- Libc.EIO)
    else if d.blockIsBad block < 0 then .error (d.blockIsBad block)
    else if d.blockIsBad block = 1 then seekBlocks d (block + 1) (offsetBlock + 1) (countBb + 1)
    else seekBlocks d (block + 1) offsetBlock countBb
  else .ok countBb
termination_by d.maxBlock - block

def nandSeekBb (d : Nand) (base offset : ℕ) : Except Int ℕ :=
  let block := base / d.blockSize % 2 ^ 32
  let offsetBlock := if offset ≠ 0 then (base + offset - 1) % 2 ^ 64 / d.blockSize % 2 ^ 32 else block
  match d.seekBlocks block offsetBlock 0 with
  | .error ret => .error ret
  | .ok countBb => .ok (countBb * d.blockSize % 2 ^ 64)

/-- Up to the last block the seek looks at there are as many good blocks as it was to find, and the
last one is a good one of the device. -/
theorem seekBlocks_ok {block offsetBlock countBb c : ℕ}
    (h : d.seekBlocks block offsetBlock countBb = .ok c) (hle : block ≤ offsetBlock + 1) :
    countBb ≤ c ∧ (block ≤ offsetBlock → d.Good (offsetBlock + (c - countBb)) ∧
        offsetBlock + (c - countBb) < d.maxBlock) ∧
      Nat.count d.Good (offsetBlock + (c - countBb) + 1) =
        Nat.count d.Good block + (offsetBlock + 1 - block) := by
  fun_induction seekBlocks d block offsetBlock countBb with
  | case1 => cases h
  | case2 => cases h
  | case3 block offsetBlock countBb hle' hmax hneg hbad ih =>
    obtain ⟨hc, hgood, hcount⟩ := ih h (by omega)
    rw [show offsetBlock + 1 + (c - (countBb + 1)) = offsetBlock + (c - countBb) by omega] at hgood hcount
    refine ⟨by omega, fun _ => hgood (by omega), ?_⟩
    rw [hcount, Nat.count_succ, if_neg (show ¬ d.Good block from not_not.mpr hbad)]
    omega
  | case4 block offsetBlock countBb hle' hmax hneg hbad ih =>
    obtain ⟨hc, hgood, hcount⟩ := ih h (by omega)
    refine ⟨hc, fun _ => ?_, ?_⟩
    · by_cases hlast : block + 1 ≤ offsetBlock
      · exact hgood hlast
      · obtain rfl : block = offsetBlock := by omega
        rw [seekBlocks, if_neg hlast] at h
        cases h
        rw [Nat.sub_self]
        exact ⟨hbad, not_le.mp hmax⟩
    · rw [hcount, Nat.count_succ, if_pos (show d.Good block from hbad)]
      omega
  | case5 block offsetBlock countBb hle' =>
    cases h
    obtain rfl : block = offsetBlock + 1 := by omega
    simp

/-- What a seek to a position adds leads to the good block that has as many good ones before it, from
the base on, as the last byte before the position. -/
theorem nandSeekBb_ok {base offset extra : ℕ} (h : d.nandSeekBb base offset = .ok extra)
    (hpages : d.size ≤ 2 ^ 31 * d.pageSize) (hdvd : d.blockSize ∣ base) (hbase : base < d.size)
    (hoffset : offset ≤ d.size) :
    d.blockSize ∣ extra ∧ ∃ x, (base + (offset - 1) + extra) / d.blockSize = x ∧ d.Good x ∧
      x < d.maxBlock ∧
      Nat.count d.Good x = Nat.count d.Good (base / d.blockSize) + (offset - 1) / d.blockSize := by
  have hpos := d.blockSize_pos
  have hmul := d.maxBlock_mul_le
  have hsize := size_lt hpages
  have hsmall : ∀ n, n < 2 * d.size → n / d.blockSize < 2 ^ 32 := fun n hn => by
    rw [Nat.div_lt_iff_lt_mul hpos]
    have := size_le hpages
    omega
  have hsum : (base + (offset - 1)) / d.blockSize =
      base / d.blockSize + (offset - 1) / d.blockSize := Nat.add_div_of_dvd_right hdvd
  have hlast : (if offset ≠ 0 then (base + offset - 1) % 2 ^ 64 / d.blockSize % 2 ^ 32
      else base / d.blockSize) = base / d.blockSize + (offset - 1) / d.blockSize := by
    split
    · rw [show (base + offset - 1) % 2 ^ 64 = base + (offset - 1) by omega,
        Nat.mod_eq_of_lt (hsmall _ (by omega)), hsum]
    · rw [show offset - 1 = 0 by omega, Nat.zero_div, Nat.add_zero]
  rw [nandSeekBb, Nat.mod_eq_of_lt (hsmall base (by omega)), hlast] at h
  clear hlast
  generalize (offset - 1) / d.blockSize = n, base / d.blockSize = b at *
  split at h
  · cases h
  next c hc =>
    obtain ⟨-, hgood, hcount⟩ := seekBlocks_ok hc (by omega)
    obtain ⟨hgood, hlt⟩ := hgood (Nat.le_add_right _ _)
    rw [Nat.sub_zero] at hgood hlt hcount
    have hextra : c * d.blockSize ≤ d.maxBlock * d.blockSize := Nat.mul_le_mul_right _ (by omega)
    rw [Nat.mod_eq_of_lt (by omega)] at h
    cases h
    refine ⟨Nat.dvd_mul_left _ _, _, rfl, ?_⟩
    rw [Nat.add_mul_div_right _ _ hpos, hsum]
    refine ⟨hgood, hlt, ?_⟩
    rw [Nat.count_succ, if_pos hgood] at hcount
    omega

end Nand

end TrustedFirmware.Io

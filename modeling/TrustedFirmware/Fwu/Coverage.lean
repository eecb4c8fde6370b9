import TrustedFirmware.Foundations.ByteMemory
import TrustedFirmware.Fwu.Metadata

/-! # What the CRC covers

All accesses stay inside the metadata buffer, whatever the device holds. The bytes
the CRC was computed over end at `metadata_size`, which the sanity check lets be
smaller than the structure: the image entries behind it are used unchecked. -/
namespace TrustedFirmware.Fwu
open WordMemory Libc Crc32
set_option autoImplicit false
set_option maxRecDepth 100000

/-! ## Fields -/

section Fields
variable {R W : Set ℕ} {m : Buffer} {a n : ℕ}

@[simp] theorem run_loadLe (a n : ℕ) (m : Buffer) :
    Prog.run (loadLe a n) m = some (ByteMemory.load m a n, m) := by
  induction n generalizing a with
  | zero => rfl
  | succ n ih =>
    rw [loadLe, Prog.run_bind, Prog.run_load, Option.bind_some, Prog.run_bind, ih, Option.bind_some]
    rfl

theorem within_loadLe (h : ∀ i, a ≤ i → i < a + n → i ∈ R) : Prog.Within R W (loadLe a n) m := by
  induction n generalizing a with
  | zero => exact Prog.within_ret R W 0 m
  | succ n ih =>
    refine Prog.within_bind (Prog.within_load (h a (by omega) (by omega)) m) ?_
    rintro b m1 hb
    cases hb
    refine Prog.within_bind (ih fun i h1 h2 => h i (by omega) (by omega)) ?_
    intro rest m2 _
    exact Prog.within_ret R W _ m2

theorem within_field {β : Type} {f : ℕ → FwuProg β} (h : ∀ i, a ≤ i → i < a + n → i ∈ R)
    (hf : Prog.Within R W (f (ByteMemory.load m a n)) m) : Prog.Within R W (loadLe a n >>= f) m := by
  refine Prog.within_bind (within_loadLe h) ?_
  intro v m1 hv
  rw [run_loadLe] at hv
  cases hv
  exact hf

theorem within_check {β : Type} {c : ℕ → Prop} [DecidablePred c] {f : ℕ → FwuProg β} {r : β}
    (h : ∀ i, a ≤ i → i < a + n → i ∈ R) (hf : Prog.Within R W (f (ByteMemory.load m a n)) m) :
    Prog.Within R W (loadLe a n >>= fun v => if c v then pure r else f v) m := by
  refine within_field h ?_
  split
  · exact Prog.within_ret R W r m
  · exact hf

theorem within_byte {β : Type} {f : UInt8 → FwuProg β} (h : a ∈ R)
    (hf : Prog.Within R W (f (m a)) m) : Prog.Within R W (Prog.load a >>= f) m := by
  refine Prog.within_bind (Prog.within_load h m) ?_
  intro v m1 hv
  cases hv
  exact hf

def bytesAt (m : Buffer) (a n : ℕ) : List UInt8 := (List.range' a n).map m

@[simp] theorem run_loadBytes (a n : ℕ) (m : Buffer) :
    Prog.run (loadBytes a n) m = some (bytesAt m a n, m) := by
  induction n generalizing a with
  | zero => rfl
  | succ n ih =>
    rw [loadBytes, Prog.run_bind, Prog.run_load, Option.bind_some, Prog.run_bind, ih,
      Option.bind_some]
    rfl

theorem within_bytes {β : Type} {f : List UInt8 → FwuProg β}
    (h : ∀ i, a ≤ i → i < a + n → i ∈ R) (hf : Prog.Within R W (f (bytesAt m a n)) m) :
    Prog.Within R W (loadBytes a n >>= f) m := by
  have hload : Prog.Within R W (loadBytes a n) m := by
    clear hf
    induction n generalizing a with
    | zero => exact Prog.within_ret R W [] m
    | succ n ih =>
      refine within_byte (h a (by omega) (by omega)) ?_
      refine Prog.within_bind (ih fun i h1 h2 => h i (by omega) (by omega)) ?_
      intro rest m2 _
      exact Prog.within_ret R W _ m2
  refine Prog.within_bind hload ?_
  intro v m1 hv
  rw [run_loadBytes] at hv
  cases hv
  exact hf

theorem run_crcLoop (n a : ℕ) (c : UInt32) (m : Buffer) :
    Prog.run (crcLoop n a c) m = some ((bytesAt m a n).foldl crc32b c, m) := by
  induction n generalizing a c with
  | zero => rfl
  | succ n ih =>
    rw [crcLoop, Prog.run_bind, Prog.run_load, Option.bind_some, ih]
    rfl

@[simp] theorem run_crcOver (a n : ℕ) (m : Buffer) :
    Prog.run (crcOver a n) m = some (tfCrc32 0 (bytesAt m a n), m) := by
  rw [crcOver, Prog.run_bind, run_crcLoop]
  rfl

theorem reads_crcLoop (n a : ℕ) (c : UInt32) (m : Buffer) :
    Prog.reads (crcLoop n a c) m = List.range' a n := by
  induction n generalizing a c with
  | zero => rfl
  | succ n ih =>
    rw [List.range'_succ, ← ih (a + 1) (crc32b c (m a))]
    rfl

theorem writes_crcLoop (n a : ℕ) (c : UInt32) (m : Buffer) : Prog.writes (crcLoop n a c) m = [] := by
  induction n generalizing a c with
  | zero => rfl
  | succ n ih => exact ih (a + 1) (crc32b c (m a))

end Fields

/-! ## Sets of bytes -/

def metadataSize (m : Buffer) : ℕ := ByteMemory.load m METADATA_SIZE 4

def bufferBytes (cfg : FwuConfig) : Set ℕ := { k | k < sizeofMetadata cfg }

/-- The bytes the checked CRC was computed over. -/
def CrcCovers (m : Buffer) (k : ℕ) : Prop :=
  k ∈ Prog.reads (crcOver (CRC_32 + 4) (metadataSize m - 4)) m

/-- The bytes that boot decisions are made from: the active and the previously active bank, the
bank states, and with a descriptor the image entries and their number. -/
def decisionBytes (cfg : FwuConfig) : Set ℕ := { k |
  (ACTIVE_INDEX ≤ k ∧ k < PREVIOUS_ACTIVE_INDEX + 4) ∨
  (DESC_OFFSET ≤ k ∧ k < DESC_OFFSET + 2) ∨
  (BANK_STATE ≤ k ∧ k < BANK_STATE + cfg.banks) ∨
  (cfg.storeDesc = true ∧ FW_DESC + NUM_IMAGES ≤ k ∧ k < FW_DESC + NUM_IMAGES + 2) ∨
  (cfg.storeDesc = true ∧ FW_DESC + IMG_ENTRY ≤ k ∧
    k < FW_DESC + IMG_ENTRY + cfg.images * imageEntrySize cfg) }

theorem crcCovers_iff {m : Buffer} {k : ℕ} (hsize : 4 ≤ metadataSize m) :
    CrcCovers m k ↔ 4 ≤ k ∧ k < metadataSize m := by
  have hmem : k ∈ List.range' (CRC_32 + 4) (metadataSize m - 4) ↔ 4 ≤ k ∧ k < metadataSize m := by
    rw [List.mem_range'_1]
    change 4 ≤ k ∧ k < 4 + (metadataSize m - 4) ↔ _
    omega
  rw [← hmem, ← reads_crcLoop _ _ (~~~ 0) m]
  constructor
  · have hin : Prog.Within { x | x ∈ Prog.reads (crcLoop (metadataSize m - 4) (CRC_32 + 4) (~~~ 0)) m }
        Set.univ (crcOver (CRC_32 + 4) (metadataSize m - 4)) m :=
      Prog.within_bind ⟨fun _ hx => hx, fun _ _ => trivial⟩ fun _ m1 _ => Prog.within_ret _ _ _ m1
    exact hin.reads k
  · exact Prog.mem_reads_bind_left

/-! ## Accepted metadata -/

structure Sane (cfg : FwuConfig) (m : Buffer) : Prop where
  active : ByteMemory.load m ACTIVE_INDEX 4 < cfg.banks
  previous : ByteMemory.load m PREVIOUS_ACTIVE_INDEX 4 < cfg.banks
  size_ge : FWU_FW_STORE_DESC_OFFSET ≤ metadataSize m
  size_le : metadataSize m ≤ sizeofMetadata cfg
  offset : ByteMemory.load m DESC_OFFSET 2 = if cfg.storeDesc then FWU_FW_STORE_DESC_OFFSET else 0

def CrcOk (m : Buffer) : Prop :=
  ByteMemory.load m CRC_32 4 = (tfCrc32 0 (bytesAt m (CRC_32 + 4) (metadataSize m - 4))).toNat

section Accepted
variable {cfg : FwuConfig} {m m' : Buffer}

theorem EINVAL_ne_zero : (-EINVAL : Int) ≠ 0 := by decide

/-- A field check that does not end the function. -/
theorem check_zero {c : ℕ → Prop} [DecidablePred c] {f : ℕ → FwuProg Int} {a n : ℕ} {r : Int}
    (h : Prog.run (loadLe a n >>= fun v => if c v then pure (-EINVAL) else f v) m = some (r, m'))
    (hr : r = 0) :
    ¬ c (ByteMemory.load m a n) ∧ Prog.run (f (ByteMemory.load m a n)) m = some (r, m') := by
  rw [Prog.run_bind, run_loadLe, Option.bind_some] at h
  split at h
  · cases h
    exact absurd hr EINVAL_ne_zero
  · next hc => exact ⟨hc, h⟩

theorem descriptorCheck_zero {r : Int} (h : Prog.run (descriptorCheck cfg) m = some (r, m'))
    (hr : r = 0) : m' = m ∧ ByteMemory.load m DESC_OFFSET 2 = FWU_FW_STORE_DESC_OFFSET := by
  unfold descriptorCheck at h
  obtain ⟨-, h⟩ := check_zero h hr
  obtain ⟨-, h⟩ := check_zero h hr
  obtain ⟨-, h⟩ := check_zero h hr
  obtain ⟨-, h⟩ := check_zero h hr
  rw [Prog.run_bind, run_loadLe, Option.bind_some] at h
  cases h
  refine ⟨rfl, ?_⟩
  by_contra hc
  rw [if_pos hc] at hr
  exact EINVAL_ne_zero hr

theorem sanityCheck_zero {r : Int} (h : Prog.run (fwuMetadataSanityCheck cfg) m = some (r, m'))
    (hr : r = 0) : m' = m ∧ Sane cfg m := by
  unfold fwuMetadataSanityCheck at h
  obtain ⟨-, h⟩ := check_zero h hr
  obtain ⟨hactive, h⟩ := check_zero h hr
  obtain ⟨hprevious, h⟩ := check_zero h hr
  obtain ⟨hsize, h⟩ := check_zero h hr
  have hge : FWU_FW_STORE_DESC_OFFSET ≤ metadataSize m :=
    Nat.le_of_not_lt fun hc => hsize (Or.inr hc)
  have hle : metadataSize m ≤ sizeofMetadata cfg := Nat.le_of_not_lt fun hc => hsize (Or.inl hc)
  split at h
  · next hdesc =>
    obtain ⟨hm, hoffset⟩ := descriptorCheck_zero h hr
    exact ⟨hm, Nat.lt_of_not_le hactive, Nat.lt_of_not_le hprevious, hge, hle,
      by rw [hoffset, if_pos hdesc]⟩
  · next hdesc =>
    rw [Prog.run_bind, run_loadLe, Option.bind_some] at h
    cases h
    refine ⟨rfl, Nat.lt_of_not_le hactive, Nat.lt_of_not_le hprevious, hge, hle, ?_⟩
    rw [if_neg hdesc]
    by_contra hc
    rw [if_pos hc] at hr
    exact EINVAL_ne_zero hr

theorem crc_length (hs : Sane cfg m) :
    (ByteMemory.load m METADATA_SIZE 4 + 2 ^ 64 - 4) % 2 ^ 64 = metadataSize m - 4 := by
  have hlt : ByteMemory.load m METADATA_SIZE 4 < 256 ^ 4 := ByteMemory.load_lt m METADATA_SIZE 4
  have hge := hs.size_ge
  unfold metadataSize FWU_FW_STORE_DESC_OFFSET at *
  omega

theorem crcCheck_zero (hs : Sane cfg m) (h : Prog.run fwuMetadataCrcCheck m = some (0, m')) :
    m' = m ∧ CrcOk m := by
  unfold fwuMetadataCrcCheck at h
  rw [Prog.run_bind, run_loadLe, Option.bind_some, crc_length hs, Prog.run_bind, run_crcOver,
    Option.bind_some, Prog.run_bind, run_loadLe, Option.bind_some] at h
  have hr : (if ByteMemory.load m CRC_32 4 ≠
      (tfCrc32 0 (bytesAt m (CRC_32 + 4) (metadataSize m - 4))).toNat then (-1 : Int) else 0) = 0 :=
    congrArg (fun o => (o.map Prod.fst).getD 0) h
  refine ⟨congrArg (fun o => (o.map Prod.snd).getD m) h.symm, ?_⟩
  unfold CrcOk
  by_contra hc
  rw [if_pos hc] at hr
  exact absurd hr (by decide)

theorem metadataLoad_zero {ans : LoadAnswer} {r : Int}
    (h : Prog.run (fwuMetadataLoad cfg ans) m = some (r, m')) (hr : r = 0) :
    Sane cfg m' ∧ CrcOk m' := by
  unfold fwuMetadataLoad at h
  split at h
  · next hc =>
    cases h
    exact absurd hr hc
  split at h
  · next hc =>
    cases h
    exact absurd hr hc
  rw [Prog.run_bind] at h
  obtain ⟨⟨_, m1⟩, hstores⟩ := Prog.total_times
    (fun i => Prog.total_store (A := ℕ) i (ans.data.getD i 0))
    (min ans.data.length (sizeofMetadata cfg)) m
  rw [hstores, Option.bind_some] at h
  split at h
  · next hc =>
    cases h
    exact absurd hr hc
  split at h
  · cases h
    exact absurd hr (by decide)
  rw [Prog.run_bind] at h
  cases hsan : Prog.run (fwuMetadataSanityCheck cfg) m1 with
  | none =>
    rw [hsan] at h
    cases h
  | some out =>
    obtain ⟨s, m2⟩ := out
    rw [hsan, Option.bind_some] at h
    split at h
    · next hc =>
      cases h
      exact absurd hr hc
    next hc =>
    obtain ⟨rfl, hs⟩ := sanityCheck_zero hsan (not_not.mp hc)
    subst hr
    obtain ⟨rfl, hcrc⟩ := crcCheck_zero hs h
    exact ⟨hs, hcrc⟩

theorem fwuInit_accepts {main backup : LoadAnswer}
    (h : Prog.run (fwuInit cfg main backup) m = some ((), m')) : Sane cfg m' ∧ CrcOk m' := by
  rw [fwuInit, Prog.run_bind] at h
  cases hmain : Prog.run (fwuMetadataLoad cfg main) m with
  | none =>
    rw [hmain] at h
    cases h
  | some out =>
    obtain ⟨r, m1⟩ := out
    rw [hmain, Option.bind_some] at h
    split at h
    · rw [Prog.run_bind] at h
      cases hbackup : Prog.run (fwuMetadataLoad cfg backup) m1 with
      | none =>
        rw [hbackup] at h
        cases h
      | some out =>
        obtain ⟨r', m2⟩ := out
        rw [hbackup, Option.bind_some, Prog.run_assert] at h
        split at h
        · next hz =>
          cases h
          exact metadataLoad_zero hbackup (beq_iff_eq.mp hz)
        · cases h
    · next hz =>
      cases h
      exact metadataLoad_zero hmain (not_not.mp hz)

end Accepted

/-! ## Footprints -/

section Footprints
variable {cfg : FwuConfig} {m : Buffer}

theorem header_mem {k : ℕ} (h : k < FW_DESC) : k ∈ bufferBytes cfg :=
  Nat.lt_of_lt_of_le h (Nat.le_add_right _ _)

theorem descriptor_mem (hdesc : cfg.storeDesc = true) {k : ℕ} (h : k < FW_DESC + IMG_ENTRY) :
    k ∈ bufferBytes cfg := by
  change k < sizeofMetadata cfg
  rw [sizeofMetadata, if_pos hdesc, ← Nat.add_assoc]
  exact Nat.lt_of_lt_of_le h (Nat.le_add_right _ _)

theorem decisionBytes_subset (cfg : FwuConfig) : decisionBytes cfg ⊆ bufferBytes cfg := by
  have hbanks := cfg.banks_mem.2
  unfold NR_OF_MAX_FW_BANKS at hbanks
  rintro k (⟨-, h⟩ | ⟨-, h⟩ | ⟨-, h⟩ | ⟨hdesc, -, h⟩ | ⟨hdesc, -, h⟩)
  · exact header_mem (Nat.lt_of_lt_of_le h (by decide))
  · exact header_mem (Nat.lt_of_lt_of_le h (by decide))
  · refine header_mem ?_
    unfold BANK_STATE at h
    unfold FW_DESC
    omega
  · exact descriptor_mem hdesc (Nat.lt_of_lt_of_le h (by decide))
  · change k < sizeofMetadata cfg
    rw [sizeofMetadata, if_pos hdesc, ← Nat.add_assoc]
    exact h

theorem within_descriptorCheck (hdesc : cfg.storeDesc = true) {W : Set ℕ} :
    Prog.Within (bufferBytes cfg) W (descriptorCheck cfg) m := by
  have hfield : ∀ {a n}, a + n ≤ FW_DESC + IMG_ENTRY → ∀ i, a ≤ i → i < a + n → i ∈ bufferBytes cfg :=
    fun h i _ hi => descriptor_mem hdesc (Nat.lt_of_lt_of_le hi h)
  refine within_check (hfield (by decide)) ?_
  refine within_check (hfield (by decide)) ?_
  refine within_check (hfield (by decide)) ?_
  refine within_check (hfield (by decide)) ?_
  exact within_field (hfield (by decide)) (Prog.within_ret _ _ _ m)

theorem within_sanityCheck {W : Set ℕ} :
    Prog.Within (bufferBytes cfg) W (fwuMetadataSanityCheck cfg) m := by
  have hfield : ∀ {a n}, a + n ≤ FW_DESC → ∀ i, a ≤ i → i < a + n → i ∈ bufferBytes cfg :=
    fun h i _ hi => header_mem (Nat.lt_of_lt_of_le hi h)
  refine within_check (hfield (by decide)) ?_
  refine within_check (hfield (by decide)) ?_
  refine within_check (hfield (by decide)) ?_
  refine within_check (hfield (by decide)) ?_
  split
  · next hdesc => exact within_descriptorCheck hdesc
  · exact within_field (hfield (by decide)) (Prog.within_ret _ _ _ m)

theorem within_crcCheck (hs : Sane cfg m) {W : Set ℕ} :
    Prog.Within (bufferBytes cfg) W fwuMetadataCrcCheck m := by
  have hge := hs.size_ge
  have hle := hs.size_le
  have hfield : ∀ {a n}, a + n ≤ FW_DESC → ∀ i, a ≤ i → i < a + n → i ∈ bufferBytes cfg :=
    fun h i _ hi => header_mem (Nat.lt_of_lt_of_le hi h)
  refine within_field (hfield (by decide)) ?_
  rw [crc_length hs]
  have hcrc : Prog.Within (bufferBytes cfg) W (crcOver (CRC_32 + 4) (metadataSize m - 4)) m := by
    refine Prog.within_bind ⟨?_, ?_⟩ fun _ m1 _ => Prog.within_ret _ _ _ m1
    · intro k hk
      rw [reads_crcLoop, List.mem_range'_1] at hk
      change k < sizeofMetadata cfg
      unfold FWU_FW_STORE_DESC_OFFSET CRC_32 at *
      omega
    · intro k hk
      rw [writes_crcLoop] at hk
      exact absurd hk List.not_mem_nil
  refine Prog.within_bind hcrc ?_
  intro calcCrc m1 hrun
  rw [run_crcOver] at hrun
  cases hrun
  exact within_field (hfield (by decide)) (Prog.within_ret _ _ _ m)

theorem within_metadataLoad (ans : LoadAnswer) :
    Prog.Within (bufferBytes cfg) (bufferBytes cfg) (fwuMetadataLoad cfg ans) m := by
  unfold fwuMetadataLoad
  split
  · exact Prog.within_ret _ _ _ m
  split
  · exact Prog.within_ret _ _ _ m
  have hstores : Prog.Within (bufferBytes cfg) (bufferBytes cfg)
      (Prog.times (fun i => Prog.store i (ans.data.getD i 0))
        (min ans.data.length (sizeofMetadata cfg))) m :=
    Prog.within_times (fun i hi m1 => by
      have hin : i ∈ bufferBytes cfg := Nat.lt_of_lt_of_le hi (Nat.min_le_right _ _)
      exact Prog.within_store hin _ m1) m
  refine Prog.within_bind hstores ?_
  intro _ m1 _
  split
  · exact Prog.within_ret _ _ _ m1
  split
  · exact Prog.within_ret _ _ _ m1
  refine Prog.within_bind within_sanityCheck ?_
  intro result m2 hsan
  split
  · exact Prog.within_ret _ _ _ m2
  next hz =>
  obtain ⟨rfl, hs⟩ := sanityCheck_zero hsan (not_not.mp hz)
  exact within_crcCheck hs

theorem within_fwuInit (main backup : LoadAnswer) :
    Prog.Within (bufferBytes cfg) (bufferBytes cfg) (fwuInit cfg main backup) m := by
  refine Prog.within_bind (within_metadataLoad main) ?_
  intro result m1 _
  split
  · refine Prog.within_bind (within_metadataLoad backup) ?_
    intro result m2 _
    exact Prog.within_assert _ _ _ m2
  · exact Prog.within_ret _ _ _ m1

theorem active_mem {k : ℕ} (h1 : ACTIVE_INDEX ≤ k) (h2 : k < ACTIVE_INDEX + 4) :
    k ∈ decisionBytes cfg := Or.inl ⟨h1, Nat.lt_of_lt_of_le h2 (by decide)⟩

theorem previous_mem {k : ℕ} (h1 : PREVIOUS_ACTIVE_INDEX ≤ k) (h2 : k < PREVIOUS_ACTIVE_INDEX + 4) :
    k ∈ decisionBytes cfg := Or.inl ⟨Nat.le_trans (by decide) h1, h2⟩

theorem state_mem {i : ℕ} (h : i < cfg.banks) : BANK_STATE + i ∈ decisionBytes cfg :=
  Or.inr (Or.inr (Or.inl ⟨Nat.le_add_right _ _, Nat.add_lt_add_left h _⟩))

theorem within_activeBankState (hs : Sane cfg m) :
    Prog.Within (decisionBytes cfg) ∅ fwuGetActiveBankState m :=
  within_field (fun _ => active_mem) (Prog.within_load (state_mem hs.active) m)

theorem within_otherBank (state : UInt8) {n i : ℕ} (h : i + n ≤ cfg.banks) :
    Prog.Within (decisionBytes cfg) ∅ (otherBank state n i) m := by
  induction n generalizing i with
  | zero => exact Prog.within_ret _ _ _ m
  | succ n ih =>
    refine within_field (fun _ => active_mem) (within_field (fun _ => previous_mem) ?_)
    split
    · exact ih (by omega)
    · refine within_byte (state_mem (by omega)) ?_
      split
      · exact Prog.within_ret _ _ _ m
      · exact ih (by omega)

def loopTakes (m : Buffer) (state : UInt8) (i : ℕ) : Bool :=
  decide (¬ (i = ByteMemory.load m ACTIVE_INDEX 4 ∨ i = ByteMemory.load m PREVIOUS_ACTIVE_INDEX 4) ∧
    m (BANK_STATE + i) = state)

theorem run_otherBank (state : UInt8) (n i : ℕ) (m : Buffer) :
    Prog.run (otherBank state n i) m = some ((List.range' i n).find? (loopTakes m state), m) := by
  induction n generalizing i with
  | zero => rfl
  | succ n ih =>
    rw [otherBank, Prog.run_bind, run_loadLe, Option.bind_some, Prog.run_bind, run_loadLe,
      Option.bind_some, List.range'_succ]
    split
    · next hi =>
      rw [ih, List.find?_cons_of_neg]
      exact fun h => (of_decide_eq_true h).1 hi
    · next hi =>
      rw [Prog.run_bind, Prog.run_load, Option.bind_some]
      split
      · next hs =>
        have htakes : loopTakes m state i = true := decide_eq_true ⟨hi, hs⟩
        rw [List.find?_cons_of_pos htakes]
        rfl
      · next hs =>
        rw [ih, List.find?_cons_of_neg]
        exact fun h => hs (of_decide_eq_true h).2

def firstInState (cfg : FwuConfig) (m : Buffer) (state : UInt8) : Option ℕ :=
  if m (BANK_STATE + ByteMemory.load m PREVIOUS_ACTIVE_INDEX 4) = state then
    some (ByteMemory.load m PREVIOUS_ACTIVE_INDEX 4)
  else (List.range cfg.banks).find? (loopTakes m state)

theorem run_bankInState (cfg : FwuConfig) (state : UInt8) (m : Buffer) :
    Prog.run (bankInState cfg state) m = some (firstInState cfg m state, m) := by
  rw [bankInState, Prog.run_bind, run_loadLe, Option.bind_some, Prog.run_bind, Prog.run_load,
    Option.bind_some, firstInState, List.range_eq_range']
  split
  · rfl
  · exact run_otherBank state cfg.banks 0 m

theorem within_bankInState (hs : Sane cfg m) (state : UInt8) {β : Type} {f : Option ℕ → FwuProg β}
    (hf : ∀ b, Prog.Within (decisionBytes cfg) ∅ (f b) m) :
    Prog.Within (decisionBytes cfg) ∅ (bankInState cfg state >>= f) m := by
  have hbank : Prog.Within (decisionBytes cfg) ∅ (bankInState cfg state) m := by
    refine within_field (fun _ => previous_mem) (within_byte (state_mem hs.previous) ?_)
    split
    · exact Prog.within_ret _ _ _ m
    · exact within_otherBank state (Nat.le_of_eq (Nat.zero_add _))
  refine Prog.within_bind hbank ?_
  intro b m1 hrun
  rw [run_bankInState] at hrun
  cases hrun
  exact hf _

theorem within_alternateBootBank (hs : Sane cfg m) :
    Prog.Within (decisionBytes cfg) ∅ (fwuGetAlternateBootBank cfg) m := by
  refine within_bankInState hs _ fun b => ?_
  cases b with
  | some i => exact Prog.within_ret _ _ _ m
  | none =>
    refine within_bankInState hs _ fun b => ?_
    cases b with
    | some i => exact Prog.within_ret _ _ _ m
    | none => exact Prog.within_ret _ _ _ m

theorem within_fipEntry (hs : Sane cfg m) (hdesc : cfg.storeDesc = true) (guid : List UInt8)
    {n i : ℕ} (h : i + n = cfg.images) : Prog.Within (decisionBytes cfg) ∅
      (fipEntry cfg guid n (FW_DESC + IMG_ENTRY + i * imageEntrySize cfg)) m := by
  have hactive := hs.active
  have hentry : ∀ {i}, i < cfg.images → ∀ off < imageEntrySize cfg,
      FW_DESC + IMG_ENTRY + i * imageEntrySize cfg + off ∈ decisionBytes cfg := by
    intro i hi off hoff
    refine Or.inr (Or.inr (Or.inr (Or.inr ⟨hdesc, by omega, ?_⟩)))
    have hstep : i * imageEntrySize cfg + imageEntrySize cfg ≤ cfg.images * imageEntrySize cfg := by
      rw [← Nat.succ_mul]
      exact Nat.mul_le_mul_right _ hi
    omega
  induction n generalizing i with
  | zero => exact Prog.within_ret _ _ _ m
  | succ n ih =>
    have hin : ∀ off, off + GUID_SIZE ≤ imageEntrySize cfg → ∀ k,
        FW_DESC + IMG_ENTRY + i * imageEntrySize cfg + off ≤ k →
        k < FW_DESC + IMG_ENTRY + i * imageEntrySize cfg + off + GUID_SIZE →
        k ∈ decisionBytes cfg := by
      intro off hoff k h1 h2
      obtain ⟨d, rfl⟩ := Nat.exists_eq_add_of_le h1
      rw [Nat.add_assoc]
      exact hentry (by omega) _ (by omega)
    have hsize : imageEntrySize cfg = 32 + cfg.banks * 24 := rfl
    refine within_bytes (hin 0 (by rw [hsize]; unfold GUID_SIZE; omega)) ?_
    split
    · refine within_field (fun _ => active_mem) ?_
      have hinfo : IMG_BANK_INFO + ByteMemory.load m ACTIVE_INDEX 4 * bankInfoSize + GUID_SIZE ≤
          imageEntrySize cfg := by
        have hstep : (ByteMemory.load m ACTIVE_INDEX 4 + 1) * 24 ≤ cfg.banks * 24 :=
          Nat.mul_le_mul_right 24 hactive
        change 32 + ByteMemory.load m ACTIVE_INDEX 4 * 24 + 16 ≤ _
        rw [hsize]
        omega
      have hguid := hin _ hinfo
      rw [← Nat.add_assoc (FW_DESC + IMG_ENTRY + i * imageEntrySize cfg)] at hguid
      exact within_bytes hguid (Prog.within_ret _ _ _ m)
    · have hnext := @ih (i + 1) (by omega)
      rw [Nat.succ_mul, ← Nat.add_assoc] at hnext
      exact hnext

theorem run_fipEntry (cfg : FwuConfig) (guid : List UInt8) (n entry : ℕ) (m : Buffer) :
    ∃ s, Prog.run (fipEntry cfg guid n entry) m = some (s, m) := by
  induction n generalizing entry with
  | zero => exact ⟨none, rfl⟩
  | succ n ih =>
    rw [fipEntry, Prog.run_bind, run_loadBytes, Option.bind_some]
    split
    · rw [Prog.run_bind, run_loadLe, Option.bind_some, Prog.run_bind, run_loadBytes]
      exact ⟨_, rfl⟩
    · exact ih _

theorem within_imagesSource (hs : Sane cfg m) (guid : List UInt8) :
    Prog.Within (decisionBytes cfg) ∅ (platFwuSetImagesSource cfg guid) m := by
  have haddr : ∀ active, Prog.Within (decisionBytes cfg) ∅ (armSetFipAddr cfg active) m :=
    fun active => Prog.within_bind (Prog.within_assert _ _ _ m) fun _ m1 _ => Prog.within_ret _ _ _ m1
  refine within_field (fun _ h1 h2 => Or.inr (Or.inl ⟨h1, h2⟩)) ?_
  rw [hs.offset]
  cases hdesc : cfg.storeDesc with
  | false => exact within_field (fun _ => active_mem) (haddr _)
  | true =>
    rw [if_pos rfl, if_neg (by decide)]
    have hentries := within_fipEntry hs hdesc guid (Nat.zero_add cfg.images)
    rw [Nat.zero_mul, Nat.add_zero] at hentries
    refine Prog.within_bind hentries ?_
    intro s m1 hrun
    obtain ⟨s', hs'⟩ := run_fipEntry cfg guid cfg.images (FW_DESC + IMG_ENTRY) m
    obtain rfl : m1 = m := by
      rw [show FWU_FW_STORE_DESC_OFFSET = FW_DESC from rfl, hs'] at hrun
      cases hrun
      rfl
    cases s with
    | some source => exact Prog.within_ret _ _ _ m1
    | none => exact within_field (fun _ => active_mem) (haddr _)

end Footprints

/-! ## Coverage -/

theorem decisions_covered_iff {cfg : FwuConfig} {m : Buffer} (hs : Sane cfg m) :
    (∀ k ∈ decisionBytes cfg, CrcCovers m k) ↔
      (cfg.storeDesc = true → metadataSize m = sizeofMetadata cfg) := by
  have hge := hs.size_ge
  have hle := hs.size_le
  have hcov : ∀ k, CrcCovers m k ↔ 4 ≤ k ∧ k < metadataSize m :=
    fun k => crcCovers_iff (Nat.le_trans (by decide) hge)
  have hentry : 0 < imageEntrySize cfg := Nat.lt_of_lt_of_le (by decide) (Nat.le_add_right _ _)
  have hentries : 0 < cfg.images * imageEntrySize cfg := Nat.mul_pos cfg.images_pos hentry
  constructor
  · -- the last byte of the last image entry
    intro h hdesc
    have hsize : sizeofMetadata cfg = FW_DESC + IMG_ENTRY + cfg.images * imageEntrySize cfg := by
      rw [sizeofMetadata, if_pos hdesc, ← Nat.add_assoc]
    have hlast := (hcov (sizeofMetadata cfg - 1)).mp (h _
      (Or.inr (Or.inr (Or.inr (Or.inr ⟨hdesc, by omega, by omega⟩)))))
    omega
  · intro h k hk
    rw [hcov]
    by_cases hdesc : cfg.storeDesc = true
    · have hin : k < sizeofMetadata cfg := decisionBytes_subset cfg hk
      refine ⟨?_, by rw [h hdesc]; exact hin⟩
      obtain ⟨h1, -⟩ | ⟨h1, -⟩ | ⟨h1, -⟩ | ⟨-, h1, -⟩ | ⟨-, h1, -⟩ := hk <;>
        exact Nat.le_trans (by decide) h1
    · have hbanks := cfg.banks_mem.2
      unfold NR_OF_MAX_FW_BANKS at hbanks
      obtain ⟨h1, h2⟩ | ⟨h1, h2⟩ | ⟨h1, h2⟩ | ⟨hc, -⟩ | ⟨hc, -⟩ := hk
      · exact ⟨Nat.le_trans (by decide) h1, Nat.lt_of_lt_of_le h2 (Nat.le_trans (by decide) hge)⟩
      · exact ⟨Nat.le_trans (by decide) h1, Nat.lt_of_lt_of_le h2 (Nat.le_trans (by decide) hge)⟩
      · refine ⟨Nat.le_trans (by decide) h1, ?_⟩
        unfold BANK_STATE at h2
        unfold FWU_FW_STORE_DESC_OFFSET at hge
        omega
      · exact absurd hc hdesc
      · exact absurd hc hdesc

/-- For every content of the device and of the buffer: loading stays inside the buffer, and after
it was accepted so do the decisions, which read nothing but the decision bytes. The CRC that was
checked covers these exactly when the metadata with a descriptor has its full size. -/
theorem metadata_covered_iff (cfg : FwuConfig) (main backup : LoadAnswer) (guid : List UInt8)
    (m0 : Buffer) :
    Prog.Within (bufferBytes cfg) (bufferBytes cfg) (fwuInit cfg main backup) m0 ∧
    ∀ m, Prog.run (fwuInit cfg main backup) m0 = some ((), m) →
      (decisionBytes cfg ⊆ bufferBytes cfg ∧
        Prog.Within (decisionBytes cfg) ∅ fwuGetActiveBankState m ∧
        Prog.Within (decisionBytes cfg) ∅ (fwuGetAlternateBootBank cfg) m ∧
        Prog.Within (decisionBytes cfg) ∅ (platFwuSetImagesSource cfg guid) m) ∧
      CrcOk m ∧
      ((∀ k ∈ decisionBytes cfg, CrcCovers m k) ↔
        (cfg.storeDesc = true → metadataSize m = sizeofMetadata cfg)) := by
  refine ⟨within_fwuInit main backup, ?_⟩
  intro m h
  obtain ⟨hs, hcrc⟩ := fwuInit_accepts h
  exact ⟨⟨decisionBytes_subset cfg, within_activeBankState hs, within_alternateBootBank hs,
    within_imagesSource hs guid⟩, hcrc, decisions_covered_iff hs⟩

/-! ## Metadata that ends before its image entries -/

def sampleConfig : FwuConfig := ⟨2, 1, true, by decide, by decide⟩

def sampleTypeGuid : List UInt8 := [0, 1, 2, 3, 4, 5, 6, 7, 8, 9, 10, 11, 12, 13, 14, 15]

def sampleMetadata (crc size : List UInt8) (guid : UInt8) : List UInt8 :=
  crc ++ [2, 0, 0, 0] ++ [0, 0, 0, 0] ++ [1, 0, 0, 0] ++ size ++ [0x20, 0, 0, 0] ++
    [0xFC, 0xFE, 0xFF, 0xFF] ++ [0, 0, 0, 0] ++ [2, 0, 1, 0, 0x50, 0, 0x18, 0] ++
    sampleTypeGuid ++ List.replicate 16 0 ++
    List.replicate 16 guid ++ [1, 0, 0, 0, 0, 0, 0, 0] ++
    List.replicate 16 0xB0 ++ [1, 0, 0, 0, 0, 0, 0, 0]

def sampleAnswer (data : List UInt8) : LoadAnswer := ⟨0, 0, 0, 120, data⟩

def fullMetadata : List UInt8 := sampleMetadata [0xF5, 0x83, 0x04, 0xEA] [0x78, 0, 0, 0] 0xA0

theorem metadata_covered_iff_full :
    ∃ m, Prog.run (fwuInit sampleConfig (sampleAnswer fullMetadata) (sampleAnswer fullMetadata))
        (fun _ => 0) = some ((), m) ∧ CrcOk m ∧
      ((∀ k ∈ decisionBytes sampleConfig, CrcCovers m k) ↔
        (sampleConfig.storeDesc = true → metadataSize m = sizeofMetadata sampleConfig)) := by
  have hsome : (Prog.run (fwuInit sampleConfig (sampleAnswer fullMetadata)
      (sampleAnswer fullMetadata)) fun _ => 0).isSome = true := by decide +kernel
  obtain ⟨⟨_, m⟩, hm⟩ := Option.isSome_iff_exists.mp hsome
  exact ⟨m, hm, ((metadata_covered_iff sampleConfig (sampleAnswer fullMetadata)
    (sampleAnswer fullMetadata) sampleTypeGuid fun _ => 0).2 m hm).2⟩

/-- `fwu_init()` and what it then passes to the platform. -/
def boot (data : List UInt8) : FwuProg ImageSource := do
  fwuInit sampleConfig (sampleAnswer data) (sampleAnswer data)
  platFwuSetImagesSource sampleConfig sampleTypeGuid

/-- A `metadata_size` of 0x20 is accepted with a CRC over the header alone: the GUID of the image
that is booted can be exchanged without the CRC noticing. -/
theorem image_entry_not_covered :
    (Prog.run (boot (sampleMetadata [0xD1, 0x3A, 0x57, 0x5B] [0x20, 0, 0, 0] 0xA0)) fun _ => 0).map
      Prod.fst = some (.guid (List.replicate 16 0xA0) 0) ∧
    (Prog.run (boot (sampleMetadata [0xD1, 0x3A, 0x57, 0x5B] [0x20, 0, 0, 0] 0xEE)) fun _ => 0).map
      Prod.fst = some (.guid (List.replicate 16 0xEE) 0) := by
  decide +kernel

end TrustedFirmware.Fwu

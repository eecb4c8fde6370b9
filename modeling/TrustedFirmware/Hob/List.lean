import TrustedFirmware.Foundations.ByteMemory
import TrustedFirmware.Foundations.Runs

/-! # The list of hand-off blocks

`hob.c` lays hand-off blocks (HOBs) one behind the other, with an END marker behind the last one. A
length of 16 bits is rounded up before it is compared with the free memory, and the end of the free
memory is counted from the base of the whole memory. -/
namespace TrustedFirmware.Hob
open ByteMemory Runs
set_option autoImplicit false

def EFI_HOB_TYPE_HANDOFF : ℕ := 0x0001
def EFI_HOB_TYPE_RESOURCE_DESCRIPTOR : ℕ := 0x0003
def EFI_HOB_TYPE_GUID_EXTENSION : ℕ := 0x0004
def EFI_HOB_TYPE_FV : ℕ := 0x0005
def EFI_HOB_TYPE_END_OF_HOB_LIST : ℕ := 0xFFFF

/-! ## Headers -/

def hobType (m : Bytes) (p : ℕ) : ℕ := load m p 2
def hobLength (m : Bytes) (p : ℕ) : ℕ := load m (p + 2) 2

def putHeader (m : Bytes) (p type length : ℕ) : Bytes :=
  store (store (store m p 2 type) (p + 2) 2 length) (p + 4) 4 0

theorem putHeader_outside {m : Bytes} {p type length i : ℕ} (h : i < p ∨ p + 8 ≤ i) :
    putHeader m p type length i = m i := by
  rw [putHeader, store, store, store, blit_outside (by omega), blit_outside (by omega),
    blit_outside (by omega)]

theorem hobType_putHeader (m : Bytes) (p type length : ℕ) :
    hobType (putHeader m p type length) p = type % 2 ^ 16 := by
  rw [hobType, putHeader, load_store_outside (by omega), load_store_outside (by omega),
    load_store_self]
  rfl

theorem hobLength_putHeader (m : Bytes) (p type length : ℕ) :
    hobLength (putHeader m p type length) p = length % 2 ^ 16 := by
  rw [hobLength, putHeader, load_store_outside (by omega), load_store_self]
  rfl

theorem header_congr {m m' : Bytes} {p : ℕ} (h : ∀ i, p ≤ i → i < p + 4 → m' i = m i) :
    hobType m' p = hobType m p ∧ hobLength m' p = hobLength m p :=
  ⟨load_congr fun i h1 h2 => h i h1 (by omega), load_congr fun i h1 h2 => h i (by omega) (by omega)⟩

/-! ## Creating HOBs -/

/-- The arguments of `create_hob_list()`. -/
structure Window where
  memoryBegin : ℕ
  memoryLength : ℕ
  freeMemoryBottom : ℕ
  freeMemoryLength : ℕ

structure Created where
  addr : ℕ
  type : ℕ
  needed : ℕ
deriving DecidableEq

structure Hobs where
  mem : Bytes
  freeMemoryTop : ℕ
  freeMemoryBottom : ℕ
  endOfHobList : ℕ
  created : List Created

def HANDOFF_SIZE : ℕ := 56

def createHobList (m : Bytes) (w : Window) : Option Hobs :=
  if w.memoryBegin = 0 ∨ w.freeMemoryBottom = 0 ∨ w.memoryLength = 0 ∨ w.freeMemoryLength = 0 then
    none
  else
    let hobEnd := w.freeMemoryBottom + HANDOFF_SIZE
    some
      { mem := putHeader (putHeader m w.freeMemoryBottom EFI_HOB_TYPE_HANDOFF HANDOFF_SIZE) hobEnd
          EFI_HOB_TYPE_END_OF_HOB_LIST 8
        freeMemoryTop := (w.memoryBegin + w.freeMemoryLength) % 2 ^ 64
        freeMemoryBottom := hobEnd + 8
        endOfHobList := hobEnd
        created := [] }

/-- `ALIGN_UP()` to eight bytes, in 16 bits. -/
def alignUp (length : ℕ) : ℕ := (length + 7) / 8 * 8 % 2 ^ 16

def freeMemSize (s : Hobs) : ℕ :=
  (s.freeMemoryTop + 2 ^ 64 - s.freeMemoryBottom % 2 ^ 64) % 2 ^ 64

def createHob (s : Hobs) (type length : ℕ) : Option (Hobs × ℕ) :=
  if length = 0 then none
  else if alignUp length > freeMemSize s then none
  else
    let hobEnd := s.endOfHobList + alignUp length
    some ({ s with
      mem := putHeader (putHeader s.mem s.endOfHobList type (alignUp length)) hobEnd
        EFI_HOB_TYPE_END_OF_HOB_LIST 8
      freeMemoryBottom := hobEnd + 8
      endOfHobList := hobEnd }, s.endOfHobList)

/-- A call that creates a HOB, with what is written behind its header: the fields, or the GUID and the
data. The pointers that `create_guid_hob()` gets may be null. -/
inductive Request where
  | resource (content : Bytes)
  | guid (given : Bool) (dataLength : UInt16) (content : Bytes)
  | fv (content : Bytes)

namespace Request

def type : Request → ℕ
  | resource _ => EFI_HOB_TYPE_RESOURCE_DESCRIPTOR
  | guid _ _ _ => EFI_HOB_TYPE_GUID_EXTENSION
  | fv _ => EFI_HOB_TYPE_FV

def content : Request → Bytes
  | resource c | guid _ _ c | fv c => c

/-- The bytes of the HOB; `create_guid_hob()` refuses null pointers and lengths that overflow. -/
def length : Request → Option ℕ
  | resource _ => some 48
  | guid given dataLength _ =>
    let hobLength := (dataLength.toNat + 24) % 2 ^ 16
    if ¬ given ∨ hobLength < dataLength.toNat then none else some hobLength
  | fv _ => some 24

end Request

/-- A call; one that is refused changes nothing. -/
def create (s : Hobs) (r : Request) : Hobs :=
  match r.length with
  | none => s
  | some length =>
    match createHob s r.type length with
    | none => s
    | some (s', hob) =>
      { s' with
        mem := blit s'.mem (hob + 8) r.content (length - 8)
        created := s'.created ++ [⟨hob, r.type, length⟩] }

/-! ## Walking -/

/-- The HOBs that are visited from `p` on, by their lengths, up to the END marker at `e`. -/
inductive Walk (m : Bytes) : ℕ → List ℕ → ℕ → Prop
  | done {p : ℕ} (htype : hobType m p = EFI_HOB_TYPE_END_OF_HOB_LIST) : Walk m p [] p
  | next {p e : ℕ} {ps : List ℕ} (htype : hobType m p ≠ EFI_HOB_TYPE_END_OF_HOB_LIST)
      (hlen : 8 ≤ hobLength m p) (rest : Walk m (p + hobLength m p) ps e) : Walk m p (p :: ps) e

theorem Walk.inside {m : Bytes} {p e : ℕ} {ps : List ℕ} (h : Walk m p ps e) :
    p ≤ e ∧ ∀ q ∈ ps, p ≤ q ∧ 8 ≤ hobLength m q ∧ q + hobLength m q ≤ e := by
  induction h with
  | done htype => simp
  | next htype hlen rest ih =>
    obtain ⟨hle, hall⟩ := ih
    refine ⟨by omega, List.forall_mem_cons.mpr ⟨⟨le_rfl, hlen, hle⟩, fun q hq => ?_⟩⟩
    obtain ⟨h1, h2, h3⟩ := hall q hq
    exact ⟨by omega, h2, h3⟩

theorem Walk.snoc {m m' : Bytes} {p e : ℕ} {ps : List ℕ} (h : Walk m p ps e)
    (hbelow : ∀ i < e, m' i = m i) (htype : hobType m' e ≠ EFI_HOB_TYPE_END_OF_HOB_LIST)
    (hlen : 8 ≤ hobLength m' e)
    (hend : hobType m' (e + hobLength m' e) = EFI_HOB_TYPE_END_OF_HOB_LIST) :
    Walk m' p (ps ++ [e]) (e + hobLength m' e) := by
  induction h with
  | done _ => exact .next htype hlen (.done hend)
  | @next p e ps htype' hlen' rest ih =>
    have hle := rest.inside.1
    obtain ⟨ht, hl⟩ := @header_congr m m' p fun i _ hi => hbelow i (by omega)
    have hrest := ih hbelow htype hlen hend
    rw [← hl] at hrest
    exact .next (by rw [ht]; exact htype') (by rw [hl]; exact hlen') hrest

/-! ## Runs -/

/-- The list is one in the window: the walk visits the HOBs that were created, in their order, and ends
at the END marker; all is inside the window; and every HOB has its type and the bytes it needs. -/
structure Sound (w : Window) (s : Hobs) : Prop where
  walk : Walk s.mem w.freeMemoryBottom (w.freeMemoryBottom :: s.created.map Created.addr)
    s.endOfHobList
  inside : ∀ p ∈ w.freeMemoryBottom :: s.created.map Created.addr, w.freeMemoryBottom ≤ p ∧
    p + hobLength s.mem p ≤ w.freeMemoryBottom + w.freeMemoryLength
  marker : w.freeMemoryBottom ≤ s.endOfHobList ∧
    s.endOfHobList + 8 ≤ w.freeMemoryBottom + w.freeMemoryLength
  room : ∀ c ∈ s.created, hobType s.mem c.addr = c.type ∧ c.needed ≤ hobLength s.mem c.addr

/-- The call is refused, or the length of the HOB is not rounded up to 0 and it fits into what is left
of the window. -/
def Fits (w : Window) (s : Hobs) (r : Request) : Prop :=
  ∀ length, r.length = some length → alignUp length ≤ freeMemSize s → alignUp length ≠ 0 ∧
    s.freeMemoryBottom + alignUp length ≤ w.freeMemoryBottom + w.freeMemoryLength

theorem Request.type_ne_end (r : Request) : r.type ≠ EFI_HOB_TYPE_END_OF_HOB_LIST := by
  cases r <;> simp [Request.type, EFI_HOB_TYPE_RESOURCE_DESCRIPTOR, EFI_HOB_TYPE_GUID_EXTENSION,
    EFI_HOB_TYPE_FV, EFI_HOB_TYPE_END_OF_HOB_LIST]

theorem Request.length_le {r : Request} {n : ℕ} (h : r.length = some n) : 24 ≤ n ∧ n < 2 ^ 16 := by
  cases r with
  | resource content =>
    cases h
    decide
  | fv content =>
    cases h
    decide
  | guid given dataLength content =>
    have hlt := dataLength.toNat_lt
    simp only [Request.length] at h
    split at h
    · cases h
    · cases h
      omega

/-- What a call does that is not refused, when the length is not rounded up to 0. -/
theorem create_created {s : Hobs} {r : Request} {n : ℕ} (hn : r.length = some n)
    (hspace : alignUp n ≤ freeMemSize s) (hne : alignUp n ≠ 0) :
    ∃ m' L, create s r = ⟨m', s.freeMemoryTop, s.endOfHobList + L + 8, s.endOfHobList + L,
        s.created ++ [⟨s.endOfHobList, r.type, n⟩]⟩ ∧ L = alignUp n ∧ n ≤ L ∧
      (∀ i < s.endOfHobList, m' i = s.mem i) ∧ hobType m' s.endOfHobList = r.type ∧
      hobLength m' s.endOfHobList = L ∧
      hobType m' (s.endOfHobList + L) = EFI_HOB_TYPE_END_OF_HOB_LIST := by
  obtain ⟨hmin, hmax⟩ := Request.length_le hn
  have hround : n ≤ alignUp n ∧ alignUp n < 2 ^ 16 := by
    rw [alignUp] at hne ⊢
    omega
  let m₁ := putHeader s.mem s.endOfHobList r.type (alignUp n)
  let m₂ := putHeader m₁ (s.endOfHobList + alignUp n) EFI_HOB_TYPE_END_OF_HOB_LIST 8
  let m' := blit m₂ (s.endOfHobList + 8) r.content (n - 8)
  -- The header of the HOB is below what is written behind it.
  have hbelow : ∀ i < s.endOfHobList + 8, m' i = m₁ i := fun i hi =>
    (blit_outside (by omega)).trans (putHeader_outside (by omega))
  obtain ⟨htype, hlen⟩ := @header_congr m₁ m' s.endOfHobList fun i _ hi => hbelow i (by omega)
  obtain ⟨hend, -⟩ := @header_congr m₂ m' (s.endOfHobList + alignUp n) fun i h1 h2 =>
    blit_outside (by omega)
  refine ⟨m', alignUp n, ?_, rfl, hround.1, ?_, ?_, ?_, ?_⟩
  · rw [create, hn]
    dsimp only
    rw [createHob, if_neg (by omega), if_neg (by omega)]
  · intro i hi
    exact (hbelow i (by omega)).trans (putHeader_outside (by omega))
  · rw [htype, hobType_putHeader]
    cases r <;> rfl
  · rw [hlen, hobLength_putHeader, Nat.mod_eq_of_lt hround.2]
  · rw [hend, hobType_putHeader]
    rfl

theorem create_refused {s : Hobs} {r : Request}
    (h : ∀ n, r.length = some n → alignUp n > freeMemSize s) : create s r = s := by
  rw [create]
  cases hn : r.length with
  | none => rfl
  | some n =>
    dsimp only
    rw [createHob, if_pos (h n hn), ite_self]

theorem Sound.create {w : Window} {s : Hobs} {r : Request} (h : Sound w s)
    (hbottom : s.freeMemoryBottom = s.endOfHobList + 8) (hfits : Fits w s r) :
    Sound w (create s r) ∧
      (Hob.create s r).freeMemoryBottom = (Hob.create s r).endOfHobList + 8 := by
  by_cases hspace : ∃ n, r.length = some n ∧ alignUp n ≤ freeMemSize s
  · obtain ⟨n, hn, hspace⟩ := hspace
    obtain ⟨hne, hroom⟩ := hfits n hn hspace
    obtain ⟨m', L, heq, hL, hle, hbelow, htype, hlen, hend⟩ := create_created hn hspace hne
    have h24 := (Request.length_le hn).1
    have hmarker := h.marker
    have hwalk := h.walk.snoc hbelow (by rw [htype]; exact r.type_ne_end) (by omega)
      (by rw [hlen]; exact hend)
    rw [hlen] at hwalk
    rw [heq]
    refine ⟨⟨by simpa using hwalk, fun p hp => ?_, ?_, ?_⟩, rfl⟩
    · obtain ⟨h1, -, h2⟩ := hwalk.inside.2 p (by simpa using hp)
      dsimp only
      omega
    · dsimp only
      omega
    · intro c hc
      rcases List.mem_append.mp hc with hc | hc
      · -- The HOBs so far are below the old END marker.
        obtain ⟨-, h8, hle'⟩ := h.walk.inside.2 c.addr
          (List.mem_cons_of_mem _ (List.mem_map_of_mem hc))
        obtain ⟨ht, hl⟩ := @header_congr s.mem m' c.addr fun i _ hi => hbelow i (by omega)
        dsimp only
        rw [ht, hl]
        exact h.room c hc
      · obtain rfl := List.mem_singleton.mp hc
        dsimp only
        exact ⟨htype, by omega⟩
  · have hrefused := @create_refused s r fun n hn => not_le.mp fun hle => hspace ⟨n, hn, hle⟩
    rw [hrefused]
    exact ⟨h, hbottom⟩

theorem createHobList_sound {m : Bytes} {w : Window} {s : Hobs} (h : createHobList m w = some s)
    (hroom : HANDOFF_SIZE + 8 ≤ w.freeMemoryLength) :
    Sound w s ∧ s.freeMemoryBottom = s.endOfHobList + 8 := by
  rw [createHobList] at h
  split at h
  · cases h
  cases h
  rw [HANDOFF_SIZE] at hroom
  obtain ⟨htype, hlen⟩ := header_congr (p := w.freeMemoryBottom) fun i _ hi =>
    @putHeader_outside (putHeader m w.freeMemoryBottom EFI_HOB_TYPE_HANDOFF HANDOFF_SIZE)
      (w.freeMemoryBottom + HANDOFF_SIZE) EFI_HOB_TYPE_END_OF_HOB_LIST 8 i
      (by rw [HANDOFF_SIZE]; omega)
  rw [hobType_putHeader] at htype
  rw [hobLength_putHeader] at hlen
  refine ⟨⟨.next (by rw [htype]; decide) (by rw [hlen]; decide) ?_, ?_, ?_, ?_⟩, rfl⟩
  · rw [hlen]
    exact .done (hobType_putHeader ..)
  · intro p hp
    obtain rfl := List.mem_singleton.mp hp
    dsimp only
    rw [hlen, HANDOFF_SIZE]
    omega
  · dsimp only
    rw [HANDOFF_SIZE]
    omega
  · intro c hc
    cases hc

end TrustedFirmware.Hob

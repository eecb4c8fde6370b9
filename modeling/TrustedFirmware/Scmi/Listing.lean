import Mathlib.Tactic

/-! # Listings over SCMI messages

Three messages hand out a list of the platform piece by piece: `CLOCK_DESCRIBE_RATES`,
`CLOCK_POSSIBLE_PARENTS_GET` and `BASE_DISCOVER_LIST_PROTOCOLS`. The agent says from which index on, and
goes on by the count of the answer. Only the last one looks at the size of the agent's buffer, and only
the second one refuses an index behind the end. -/
namespace TrustedFirmware.Scmi
set_option autoImplicit false

def SCMI_NOT_SUPPORTED : Int := -1
def SCMI_INVALID_PARAMETERS : Int := -2
def SCMI_NOT_FOUND : Int := -4
def SCMI_PROTOCOL_ERROR : Int := -10
def SCMI_PLAYLOAD_MAX : ℕ := 92
def PARENT_CLOCK_MAX_COUNT : ℕ := 255

/-- A list of the platform with its callback, which gives a slice of it and may answer as it likes
where there is no such slice. Indices have 32 bits. -/
structure Listed (α : Type) where
  list : List α
  get : ℕ → ℕ → Except Int (List α)
  small : list.length < 2 ^ 32
  slice : ∀ start n, start + n ≤ list.length → get start n = .ok ((list.drop start).take n)

structure Clock where
  rates : Except Int (Listed UInt64)
  byStep : Except Int (List UInt64)
  parents : Except Int (Listed UInt32)

/-- An answer: a status alone, or a status of 0, the word behind it and the elements. -/
inductive Reply (α : Type) where
  | status (s : Int)
  | listed (flags : ℕ) (elements : List α)

variable {α : Type}

/-- The bytes that are written to the agent's buffer, from its begin on, for elements of a size. -/
def Reply.written (size : ℕ) : Reply α → ℕ
  | status _ => 4
  | listed _ elements => 8 + size * elements.length

/-! ## The messages -/

/-- `SCMI_CLOCK_DESCRIBE_RATES_NUM_RATES_FLAGS()`; the three fields are apart. -/
def numRatesFlags (count format rem : ℕ) : ℕ :=
  count % 2 ^ 12 + format % 2 * 2 ^ 12 + rem % 2 ^ 16 * 2 ^ 16

/-- Subtraction of `size_t`. -/
def sub64 (a b : ℕ) : ℕ := (a + 2 ^ 64 - b) % 2 ^ 64

def scmiClockDescribeRates (clocks : List Clock) (inSize clockId : ℕ) (rateIndex : UInt32) :
    Reply UInt64 :=
  if inSize ≠ 8 then .status SCMI_PROTOCOL_ERROR
  else
    match clocks[clockId]? with
    | none => .status SCMI_NOT_FOUND
    | some clock =>
      match clock.rates with
      | .ok rates =>
        let maxNb := (SCMI_PLAYLOAD_MAX - 8) / 8
        let left := sub64 rates.list.length rateIndex.toNat
        let retNb := min left maxNb
        match rates.get rateIndex.toNat retNb with
        | .error s => .status s
        | .ok elements => .listed (numRatesFlags elements.length 0 (sub64 left retNb)) elements
      | .error s =>
        if s = SCMI_NOT_SUPPORTED then
          match clock.byStep with
          | .ok triplet => .listed (numRatesFlags 3 1 0) triplet
          | .error s => .status s
        else .status s

def scmiClockPossibleParentsGet (clocks : List Clock) (inSize clockId : ℕ) (skipParents : UInt32) :
    Reply UInt32 :=
  if inSize ≠ 8 then .status SCMI_PROTOCOL_ERROR
  else
    match clocks[clockId]? with
    | none => .status SCMI_NOT_FOUND
    | some clock =>
      match clock.parents with
      | .error s => .status s
      | .ok parents =>
        if skipParents.toNat ≥ parents.list.length then .status SCMI_INVALID_PARAMETERS
        else
          let maxNb := min ((SCMI_PLAYLOAD_MAX - 8) / 4) PARENT_CLOCK_MAX_COUNT
          let left := parents.list.length - skipParents.toNat
          let retNb := min left maxNb
          let remNb := min ((left - retNb) % 2 ^ 32) PARENT_CLOCK_MAX_COUNT
          match parents.get skipParents.toNat retNb with
          | .error s => .status s
          | .ok elements =>
            let elements := elements.take maxNb
            .listed (remNb % 2 ^ 8 * 2 ^ 24 + elements.length % 2 ^ 8) elements

/-- `discover_list_protocols()`. `round_up_overflow()` ends in a comma expression whose value is 0, so no
count makes it panic. -/
def discoverListProtocols (list : Listed UInt8) (inSize outSize : ℕ) (skip : UInt32) : Reply UInt8 :=
  if inSize ≠ 4 then .status SCMI_PROTOCOL_ERROR
  else
    let count := if list.list.length > skip.toNat then
      min (list.list.length - skip.toNat) (sub64 outSize 8 % 2 ^ 32) else 0
    .listed count ((list.list.drop skip.toNat).take count)

/-! ## What an agent may expect -/

/-- How the answers of a message are read: the size of an element, the two fields of the word, and the
most that the field of the remaining elements can say (0 where there is none). -/
structure Format where
  size : ℕ
  count : ℕ → ℕ
  remaining : ℕ → ℕ
  most : ℕ

def rateFormat : Format := ⟨8, fun w => w % 2 ^ 12, fun w => w / 2 ^ 16, 2 ^ 16 - 1⟩
def parentFormat : Format := ⟨4, fun w => w % 2 ^ 8, fun w => w / 2 ^ 24, PARENT_CLOCK_MAX_COUNT⟩
def protocolFormat : Format := ⟨1, id, fun _ => 0, 0⟩

/-- An answer that gives `k` elements from an index of the list on. -/
def Gives (f : Format) (l : List α) (index k flags : ℕ) (r : Reply α) : Prop :=
  0 < k ∧ index + k ≤ l.length ∧ f.count flags = k ∧ r = .listed flags ((l.drop index).take k)

/-- An answer to an index is right: it is inside the buffer, an index in the list is answered with
elements and the number of those left, and one behind the end with neither. -/
structure Right (f : Format) (l : List α) (outSize index : ℕ) (r : Reply α) : Prop where
  inside : r.written f.size ≤ outSize
  gives : index < l.length → ∃ k flags, Gives f l index k flags r ∧
    f.remaining flags = min (l.length - index - k) f.most
  behind : l.length ≤ index → ∀ flags elements, r = .listed flags elements →
    elements = [] ∧ f.count flags = 0 ∧ f.remaining flags = 0

/-- When an answer with the right elements and the right count is right. -/
theorem right_listed_iff {f : Format} {l : List α} {outSize index k flags : ℕ}
    (hlt : index < l.length → 0 < k ∧ index + k ≤ l.length)
    (hend : l.length ≤ index → k = 0 ∧ f.remaining flags = 0) (hcount : f.count flags = k) :
    Right f l outSize index (.listed flags ((l.drop index).take k)) ↔
      8 + f.size * k ≤ outSize ∧
        (index < l.length → f.remaining flags = min (l.length - index - k) f.most) := by
  have hwritten : (Reply.listed flags ((l.drop index).take k)).written f.size = 8 + f.size * k := by
    rw [Reply.written, List.length_take, List.length_drop, Nat.min_eq_left]
    by_cases h : index < l.length
    · have := hlt h
      omega
    · have := hend (by omega)
      omega
  constructor
  · intro h
    refine ⟨hwritten ▸ h.inside, fun hindex => ?_⟩
    obtain ⟨k', flags', ⟨-, -, hcount', heq⟩, hrem⟩ := h.gives hindex
    injection heq with hflags
    rw [← hflags] at hcount' hrem
    rwa [hcount.symm.trans hcount']
  · rintro ⟨hinside, hrem⟩
    refine ⟨hwritten ▸ hinside, fun hindex => ?_, fun hindex => ?_⟩
    · obtain ⟨hk, hle⟩ := hlt hindex
      exact ⟨k, flags, ⟨hk, hle, hcount, rfl⟩, hrem hindex⟩
    · intro flags' elements heq
      obtain ⟨hk, hzero⟩ := hend hindex
      injection heq with hflags helements
      rw [← hflags, ← helements, hcount, hk]
      exact ⟨rfl, rfl, hzero⟩

/-- The agent asks from an index on, as long as it gets elements. -/
def enumerate (f : Format) (ask : UInt32 → Reply α) : ℕ → UInt32 → List α
  | 0, _ => []
  | rounds + 1, index =>
    match ask index with
    | .listed flags elements =>
      if f.count flags = 0 then []
      else elements ++ enumerate f ask rounds (index + UInt32.ofNat (f.count flags))
    | _ => []

theorem enumerate_drop {f : Format} {l : List α} {ask : UInt32 → Reply α} (hsmall : l.length < 2 ^ 32)
    (hgives : ∀ i : UInt32, i.toNat < l.length → ∃ k flags, Gives f l i.toNat k flags (ask i))
    (hend : ∀ i : UInt32, i.toNat = l.length → ∀ flags elements, ask i = .listed flags elements →
      f.count flags = 0) {rounds : ℕ} {i : UInt32} (hi : i.toNat ≤ l.length)
    (hrounds : l.length < i.toNat + rounds) : enumerate f ask rounds i = l.drop i.toNat := by
  induction rounds generalizing i with
  | zero => omega
  | succ rounds ih =>
    rw [enumerate]
    by_cases hlt : i.toNat < l.length
    · obtain ⟨k, flags, hk, hle, hcount, hask⟩ := hgives i hlt
      have hnext : (i + UInt32.ofNat k).toNat = i.toNat + k := by
        rw [UInt32.toNat_add, UInt32.toNat_ofNat']
        omega
      rw [hask]
      dsimp only
      rw [hcount, if_neg (by omega), ih (by omega) (by omega), hnext, ← List.drop_drop]
      exact List.take_append_drop _ _
    · rw [List.drop_eq_nil_of_le (by omega)]
      split
      next flags elements hask => rw [if_pos (hend i (by omega) flags elements hask)]
      next => rfl

/-! ## Rates -/

section Rates
variable {clocks : List Clock} {clockId : ℕ} {clock : Clock} {rates : Listed UInt64}

theorem describeRates_inside (hclock : clocks[clockId]? = some clock) (hrates : clock.rates = .ok rates)
    {index : UInt32} (hindex : index.toNat ≤ rates.list.length) :
    scmiClockDescribeRates clocks 8 clockId index =
      .listed (numRatesFlags (min (rates.list.length - index.toNat) 10) 0
        (rates.list.length - index.toNat - min (rates.list.length - index.toNat) 10))
        ((rates.list.drop index.toNat).take (min (rates.list.length - index.toNat) 10)) := by
  have hsmall := rates.small
  have hleft : sub64 rates.list.length index.toNat = rates.list.length - index.toNat := by
    rw [sub64]
    omega
  have hrem : sub64 (rates.list.length - index.toNat) (min (rates.list.length - index.toNat) 10) =
      rates.list.length - index.toNat - min (rates.list.length - index.toNat) 10 := by
    rw [sub64]
    omega
  rw [scmiClockDescribeRates, if_neg (by decide), hclock]
  dsimp only
  rw [hrates]
  dsimp only
  rw [hleft, show (SCMI_PLAYLOAD_MAX - 8) / 8 = 10 from rfl, hrem, rates.slice _ _ (by omega)]
  dsimp only
  rw [List.length_take, List.length_drop, Nat.min_eq_left (by omega)]

theorem describeRates_behind (hclock : clocks[clockId]? = some clock) (hrates : clock.rates = .ok rates)
    {index : UInt32} (hindex : rates.list.length < index.toNat) :
    scmiClockDescribeRates clocks 8 clockId index =
      match rates.get index.toNat 10 with
      | .error s => .status s
      | .ok elements => .listed (numRatesFlags elements.length 0
        (2 ^ 64 - (index.toNat - rates.list.length + 10))) elements := by
  have hsmall := index.toNat_lt
  have hleft : sub64 rates.list.length index.toNat = 2 ^ 64 - (index.toNat - rates.list.length) := by
    rw [sub64]
    omega
  have hrem : sub64 (2 ^ 64 - (index.toNat - rates.list.length)) 10 =
      2 ^ 64 - (index.toNat - rates.list.length + 10) := by
    rw [sub64]
    omega
  rw [scmiClockDescribeRates, if_neg (by decide), hclock]
  dsimp only
  rw [hrates]
  dsimp only
  rw [hleft, show (SCMI_PLAYLOAD_MAX - 8) / 8 = 10 from rfl, Nat.min_eq_right (by omega), hrem]

/-- The answer fits into the buffer, and the low 16 bits of the number of elements left are that number
or the most the field can say; behind the end, the platform gives no elements and the difference that
wraps around has nothing in its low 16 bits. -/
def RatesFit (rates : Listed UInt64) (outSize index : ℕ) : Prop :=
  (index ≤ rates.list.length → 8 + 8 * min (rates.list.length - index) 10 ≤ outSize ∧
    (rates.list.length - index - min (rates.list.length - index) 10) % 2 ^ 16 =
      min (rates.list.length - index - min (rates.list.length - index) 10) (2 ^ 16 - 1)) ∧
  (rates.list.length < index → ∀ elements, rates.get index 10 = .ok elements →
    elements = [] ∧ (index - rates.list.length + 10) % 2 ^ 16 = 0)

theorem rateFormat_flags (count rem : ℕ) :
    rateFormat.count (numRatesFlags count 0 rem) = count % 2 ^ 12 ∧
      rateFormat.remaining (numRatesFlags count 0 rem) = rem % 2 ^ 16 := by
  simp only [rateFormat, numRatesFlags]
  omega

theorem rates_enumerated (hclock : clocks[clockId]? = some clock) (hrates : clock.rates = .ok rates) :
    enumerate rateFormat (scmiClockDescribeRates clocks 8 clockId) (rates.list.length + 1) 0 =
      rates.list := by
  refine enumerate_drop rates.small (fun i hi => ?_) (fun i hi flags elements hask => ?_)
    (Nat.zero_le _) (by simp)
  · refine ⟨_, _, ?_, ?_, ?_, describeRates_inside hclock hrates hi.le⟩
    · omega
    · omega
    · rw [(rateFormat_flags _ _).1]
      omega
  · rw [describeRates_inside hclock hrates hi.le, hi] at hask
    injection hask with hflags
    rw [← hflags, (rateFormat_flags _ _).1]
    simp

theorem rates_right_iff (hclock : clocks[clockId]? = some clock) (hrates : clock.rates = .ok rates)
    {outSize : ℕ} (hout : 9 ≤ outSize) (index : UInt32) :
    Right rateFormat rates.list outSize index.toNat (scmiClockDescribeRates clocks 8 clockId index) ↔
      RatesFit rates outSize index.toNat := by
  by_cases hindex : index.toNat ≤ rates.list.length
  · obtain ⟨hcount, hrem⟩ := rateFormat_flags (min (rates.list.length - index.toNat) 10)
      (rates.list.length - index.toNat - min (rates.list.length - index.toNat) 10)
    rw [describeRates_inside hclock hrates hindex, right_listed_iff (fun hlt => by omega)
      (fun hle => by rw [hrem]; omega) (by rw [hcount]; omega), hrem, rateFormat, RatesFit]
    dsimp only
    constructor
    · intro h
      exact ⟨fun _ => ⟨h.1, by omega⟩, fun hlt => by omega⟩
    · intro h
      exact ⟨(h.1 hindex).1, fun _ => (h.1 hindex).2⟩
  · rw [describeRates_behind hclock hrates (by omega), RatesFit]
    have hsmall := index.toNat_lt
    split
    next s hget =>
      refine iff_of_true ⟨?_, fun hlt => by omega, fun _ => nofun⟩
        ⟨fun hle => by omega, fun _ elements hok => ?_⟩
      · rw [Reply.written]
        omega
      · rw [hget] at hok
        cases hok
    next elements hget =>
      obtain ⟨hcount, hrem⟩ := rateFormat_flags elements.length
        (2 ^ 64 - (index.toNat - rates.list.length + 10))
      constructor
      · intro h
        refine ⟨fun hle => by omega, fun _ elements' hok => ?_⟩
        obtain rfl := Except.ok.inj (hget.symm.trans hok)
        obtain ⟨hnil, -, hzero⟩ := h.behind (by omega) _ _ rfl
        rw [hrem] at hzero
        exact ⟨hnil, by omega⟩
      · intro h
        obtain ⟨rfl, hzero⟩ := h.2 (by omega) elements hget
        refine ⟨by simp only [Reply.written, List.length_nil]; omega, fun hlt => by omega,
          fun _ flags elements heq => ?_⟩
        injection heq with hflags helements
        rw [← hflags, ← helements, hcount, hrem]
        exact ⟨rfl, rfl, by omega⟩

end Rates

/-! ## Parents -/

section Parents
variable {clocks : List Clock} {clockId : ℕ} {clock : Clock} {parents : Listed UInt32}

theorem parentsGet_inside (hclock : clocks[clockId]? = some clock)
    (hparents : clock.parents = .ok parents) {index : UInt32}
    (hindex : index.toNat < parents.list.length) : ∃ flags,
    scmiClockPossibleParentsGet clocks 8 clockId index = .listed flags ((parents.list.drop
        index.toNat).take (min (parents.list.length - index.toNat) 21)) ∧
      parentFormat.count flags = min (parents.list.length - index.toNat) 21 ∧
      parentFormat.remaining flags = min (parents.list.length - index.toNat -
        min (parents.list.length - index.toNat) 21) PARENT_CLOCK_MAX_COUNT := by
  have hsmall := parents.small
  have hmax : min ((SCMI_PLAYLOAD_MAX - 8) / 4) PARENT_CLOCK_MAX_COUNT = 21 := rfl
  rw [scmiClockPossibleParentsGet, if_neg (by decide), hclock]
  dsimp only
  rw [hparents]
  dsimp only
  rw [if_neg (by omega), hmax, parents.slice _ _ (by omega)]
  dsimp only
  rw [List.take_take, show min 21 (min (parents.list.length - index.toNat) 21) =
    min (parents.list.length - index.toNat) 21 by omega, List.length_take, List.length_drop]
  refine ⟨_, rfl, ?_, ?_⟩
  · rw [parentFormat]
    dsimp only
    omega
  · rw [parentFormat, PARENT_CLOCK_MAX_COUNT]
    dsimp only
    omega

theorem parentsGet_behind (hclock : clocks[clockId]? = some clock)
    (hparents : clock.parents = .ok parents) {index : UInt32}
    (hindex : parents.list.length ≤ index.toNat) :
    scmiClockPossibleParentsGet clocks 8 clockId index = .status SCMI_INVALID_PARAMETERS := by
  rw [scmiClockPossibleParentsGet, if_neg (by decide), hclock]
  dsimp only
  rw [hparents]
  dsimp only
  rw [if_pos hindex]

theorem parents_enumerated (hclock : clocks[clockId]? = some clock)
    (hparents : clock.parents = .ok parents) :
    enumerate parentFormat (scmiClockPossibleParentsGet clocks 8 clockId) (parents.list.length + 1) 0 =
      parents.list := by
  refine enumerate_drop parents.small (fun i hi => ?_) (fun i hi flags elements hask => ?_)
    (Nat.zero_le _) (by simp)
  · obtain ⟨flags, hreply, hcount, -⟩ := parentsGet_inside hclock hparents hi
    exact ⟨_, flags, by omega, by omega, hcount, hreply⟩
  · rw [parentsGet_behind hclock hparents hi.ge] at hask
    cases hask

theorem parents_right_iff (hclock : clocks[clockId]? = some clock)
    (hparents : clock.parents = .ok parents) {outSize : ℕ} (hout : 9 ≤ outSize) (index : UInt32) :
    Right parentFormat parents.list outSize index.toNat
        (scmiClockPossibleParentsGet clocks 8 clockId index) ↔
      (index.toNat < parents.list.length →
        8 + 4 * min (parents.list.length - index.toNat) 21 ≤ outSize) := by
  by_cases hindex : index.toNat < parents.list.length
  · obtain ⟨flags, hreply, hcount, hrem⟩ := parentsGet_inside hclock hparents hindex
    rw [hreply, right_listed_iff (fun _ => by omega) (fun hle => by omega) hcount, hrem]
    constructor
    · intro h _
      exact h.1
    · intro h
      exact ⟨h hindex, fun _ => rfl⟩
  · rw [parentsGet_behind hclock hparents (by omega)]
    refine iff_of_true ⟨?_, fun hlt => absurd hlt hindex, fun _ => nofun⟩
      (fun hlt => absurd hlt hindex)
    rw [Reply.written]
    omega

end Parents

/-! ## Protocols -/

section Protocols
variable {protocols : Listed UInt8} {outSize : ℕ}

/-- The buffer has room for an element in 32 bits. -/
def ProtocolsFit (protocols : Listed UInt8) (outSize : ℕ) : Prop :=
  protocols.list = [] ∨ 0 < sub64 outSize 8 % 2 ^ 32

def protocolCount (protocols : Listed UInt8) (outSize index : ℕ) : ℕ :=
  if protocols.list.length > index then
    min (protocols.list.length - index) (sub64 outSize 8 % 2 ^ 32) else 0

theorem ProtocolsFit.count (h : ProtocolsFit protocols outSize) (index : ℕ) :
    (index < protocols.list.length → 0 < protocolCount protocols outSize index ∧
      index + protocolCount protocols outSize index ≤ protocols.list.length) ∧
      (protocols.list.length ≤ index → protocolCount protocols outSize index = 0) := by
  rw [protocolCount]
  rcases h with h | hpos
  · rw [h, if_neg (by simp)]
    simp
  · split <;> omega

theorem discoverListProtocols_reply (index : UInt32) :
    discoverListProtocols protocols 4 outSize index =
      .listed (protocolCount protocols outSize index.toNat) ((protocols.list.drop index.toNat).take
        (protocolCount protocols outSize index.toNat)) := by
  rw [discoverListProtocols, if_neg (by decide)]
  rfl

theorem protocols_right_iff (hout : 9 ≤ outSize) (hsize : outSize < 2 ^ 64) (index : UInt32) :
    (Right protocolFormat protocols.list outSize index.toNat
        (discoverListProtocols protocols 4 outSize index) ∧
      enumerate protocolFormat (discoverListProtocols protocols 4 outSize)
        (protocols.list.length + 1) 0 = protocols.list) ↔ ProtocolsFit protocols outSize := by
  constructor
  · rintro ⟨-, henum⟩
    by_contra hfit
    rw [ProtocolsFit, not_or] at hfit
    -- The first question is not answered with elements.
    have hcount : protocolCount protocols outSize (0 : UInt32).toNat = 0 := by
      rw [protocolCount, Nat.eq_zero_of_not_pos hfit.2, Nat.min_zero, ite_self]
    rw [enumerate, discoverListProtocols_reply, hcount] at henum
    exact hfit.1 henum.symm
  · intro h
    refine ⟨?_, ?_⟩
    · obtain ⟨hlt, hend⟩ := h.count index.toNat
      rw [discoverListProtocols_reply, right_listed_iff hlt (fun hle => ⟨hend hle, rfl⟩) rfl]
      refine ⟨?_, fun _ => (Nat.min_zero _).symm⟩
      rw [protocolFormat, protocolCount, sub64]
      dsimp only
      split <;> omega
    · refine enumerate_drop protocols.small (fun i hi => ?_) (fun i hi flags elements hask => ?_)
        (Nat.zero_le _) (by simp)
      · obtain ⟨hk, hle⟩ := (h.count i.toNat).1 hi
        exact ⟨_, _, hk, hle, rfl, discoverListProtocols_reply i⟩
      · rw [discoverListProtocols_reply, (h.count i.toNat).2 hi.ge] at hask
        injection hask with hflags
        exact hflags.symm

end Protocols

/-! ## All three -/

/-- For every platform, every buffer that holds a header and an element, and every index: each of the
three messages is answered as it should, and asking from 0 on gives the list, if and only if the answer
fits. -/
theorem listings_right_iff {clocks : List Clock} {clockId : ℕ} {clock : Clock} {rates : Listed UInt64}
    {parents : Listed UInt32} (hclock : clocks[clockId]? = some clock)
    (hrates : clock.rates = .ok rates) (hparents : clock.parents = .ok parents)
    (protocols : Listed UInt8) {outSize : ℕ} (hout : 9 ≤ outSize) (hsize : outSize < 2 ^ 64)
    (index : UInt32) :
    (Right rateFormat rates.list outSize index.toNat (scmiClockDescribeRates clocks 8 clockId index) ∧
        enumerate rateFormat (scmiClockDescribeRates clocks 8 clockId) (rates.list.length + 1) 0 =
          rates.list ↔ RatesFit rates outSize index.toNat) ∧
      (Right parentFormat parents.list outSize index.toNat
          (scmiClockPossibleParentsGet clocks 8 clockId index) ∧
        enumerate parentFormat (scmiClockPossibleParentsGet clocks 8 clockId)
          (parents.list.length + 1) 0 = parents.list ↔
        (index.toNat < parents.list.length →
          8 + 4 * min (parents.list.length - index.toNat) 21 ≤ outSize)) ∧
      (Right protocolFormat protocols.list outSize index.toNat
          (discoverListProtocols protocols 4 outSize index) ∧
        enumerate protocolFormat (discoverListProtocols protocols 4 outSize)
          (protocols.list.length + 1) 0 = protocols.list ↔ ProtocolsFit protocols outSize) := by
  refine ⟨?_, ?_, protocols_right_iff hout hsize index⟩
  · rw [rates_right_iff hclock hrates hout, and_iff_left (rates_enumerated hclock hrates)]
  · rw [parents_right_iff hclock hparents hout, and_iff_left (parents_enumerated hclock hparents)]

def cutting (l : List α) (h : l.length < 2 ^ 32) : Listed α where
  list := l
  get start n := .ok ((l.drop start).take n)
  small := h
  slice _ _ _ := rfl

def small : Clock where
  rates := .ok (cutting [100, 200] (by decide))
  byStep := .error SCMI_NOT_SUPPORTED
  parents := .ok (cutting [7, 8] (by decide))

theorem listings_right_small : RatesFit (cutting [100, 200] (by decide)) 24 0 ∧
    Right rateFormat [100, 200] 24 0 (scmiClockDescribeRates [small] 8 0 0) := by
  have h := (@listings_right_iff [small] 0 small _ _ rfl rfl rfl
    (cutting [16] (by decide)) 24 (by decide) (by decide) 0).1
  have hfit : RatesFit (cutting [100, 200] (by decide)) 24 0 :=
    ⟨fun _ => by decide, fun h => absurd h (by decide)⟩
  exact ⟨hfit, (h.mpr hfit).1⟩

/-- Two rates are written to a buffer with room for one, and behind the end there are elements left. -/
theorem rates_wrong : ¬ Right rateFormat [100, 200] 16 0 (scmiClockDescribeRates [small] 8 0 0) ∧
    ¬ Right rateFormat [100, 200] 92 3 (scmiClockDescribeRates [small] 8 0 3) := by
  refine ⟨fun h => ?_, fun h => ?_⟩
  · have hinside := h.inside
    revert hinside
    decide
  · obtain ⟨-, -, hzero⟩ := h.behind (by decide) _ _ rfl
    revert hzero
    decide +kernel

end TrustedFirmware.Scmi

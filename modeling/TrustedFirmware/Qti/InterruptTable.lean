import TrustedFirmware.Foundations.Runs
import TrustedFirmware.Foundations.Tables
import TrustedFirmware.Common

/-! # The table of interrupt handlers

`plat/qti/common/src/qti_interrupt_svc.c`: registering and unregistering a handler. An entry is free
when it carries the reserved number QTI_INTR_INVALID_INT_NUM, and the number of occupied entries is
counted beside them. -/
namespace TrustedFirmware.Qti
open Libc SlotTable Runs
set_option autoImplicit false

def ISR_TABLE_LEN : ℕ := 64
def QTI_INTR_INVALID_INT_NUM : UInt32 := 0xFFFFFFFF

inductive IsrHandlerType where
  | QTI_ISR_HANDLER_ID_CTX
  | QTI_ISR_HANDLER_CTX_ONLY
  deriving DecidableEq, Repr

/-- Handlers and contexts are pointers, and NULL is 0. -/
structure Isr where
  type : IsrHandlerType
  func : UInt64
  id : UInt32
  ctx : UInt64
  deriving DecidableEq, Repr

/-- A zeroed entry with the number of the free ones. -/
def Isr.cleared : Isr := ⟨.QTI_ISR_HANDLER_ID_CTX, 0, QTI_INTR_INVALID_INT_NUM, 0⟩

def Isr.free (p : Isr) : Bool := p.id == QTI_INTR_INVALID_INT_NUM

/-- The 8 bits of `cnt` do not wrap: it is below 64 when it is counted up and not 0 when it is
counted down. -/
structure IsrTable where
  entry : List Isr
  cnt : ℕ
  len : entry.length = ISR_TABLE_LEN

def isrTable : IsrTable := ⟨List.replicate ISR_TABLE_LEN .cleared, 0, List.length_replicate⟩

def IsrTable.write (t : IsrTable) (i : ℕ) (p : Isr) (cnt : ℕ) : IsrTable :=
  ⟨t.entry.set i p, cnt, by rw [List.length_set, t.len]⟩

/-- The part between `spin_lock()` and `spin_unlock()` is one step; NULL is refused before it. -/
def qtiInterruptSvcRegisterCommon (t : IsrTable) (id : UInt32) (type : IsrHandlerType)
    (func ctx : UInt64) : Int × IsrTable :=
  if func = 0 then (-EINVAL, t)
  else if t.cnt ≥ ISR_TABLE_LEN then (-ENOTCAPABLE, t)
  else
    match search (fun p : Isr => p.id == id) Isr.free t.entry 0 none with
    | some (_, true) => (-EALREADY, t)
    | some (freeIdx, false) => (0, t.write freeIdx ⟨type, func, id, ctx⟩ (t.cnt + 1))
    | none => (-ENOTCAPABLE, t)

def qtiInterruptSvcUnregisterCommon (t : IsrTable) (id : UInt32) : Int × IsrTable :=
  if t.cnt = 0 then (-ENOENT, t)
  else
    match t.entry.findIdx? fun p => p.id == id with
    | some i => (0, t.write i .cleared (t.cnt - 1))
    | none => (-ENOENT, t)

/-! ## Numbers in use -/

def IsrTable.numbers (t : IsrTable) : Multiset UInt32 := held Isr.free Isr.id t.entry

def IsrTable.occupied (t : IsrTable) : ℕ := t.entry.countP fun p => !p.free

structure Consistent (t : IsrTable) : Prop where
  count : t.cnt = t.occupied
  distinct : t.numbers.Nodup

section Lemmas
variable {t t' : IsrTable} {id : UInt32} {type : IsrHandlerType} {func ctx : UInt64} {r : Int}

theorem Isr.free_iff {p : Isr} : p.free = true ↔ p.id = QTI_INTR_INVALID_INT_NUM := beq_iff_eq

theorem IsrTable.card_numbers (t : IsrTable) : t.numbers.card = t.occupied := card_held t.entry

theorem IsrTable.mem_numbers {p : Isr} (hp : p ∈ t.entry) (h : p.id ≠ QTI_INTR_INVALID_INT_NUM) :
    p.id ∈ t.numbers :=
  mem_held.mpr ⟨p, hp, Bool.eq_false_iff.mpr fun hf => h (Isr.free_iff.mp hf), rfl⟩

theorem consistent_isrTable : Consistent isrTable := ⟨rfl, by decide⟩

theorem IsrTable.getElem?_write {i : ℕ} {p : Isr} (hp : t.entry[i]? = some p) (q : Isr) (cnt j : ℕ) :
    (t.write i q cnt).entry[j]? = if j = i then some q else t.entry[j]? := by
  obtain ⟨hi, -⟩ := List.getElem?_eq_some_iff.mp hp
  change (t.entry.set i q)[j]? = _
  rw [List.getElem?_set]
  by_cases hj : j = i
  · rw [if_pos hj.symm, if_pos hi, if_pos hj]
  · rw [if_neg (Ne.symm hj), if_neg hj]

theorem IsrTable.write_split {pre post : List Isr} {p : Isr} (hsplit : t.entry = pre ++ p :: post)
    (q : Isr) (cnt : ℕ) : (t.write pre.length q cnt).entry = pre ++ q :: post := by
  change t.entry.set pre.length q = _
  rw [hsplit, ← Nat.zero_add pre.length, set_split]

/-- The free entry and what is known of the number when a handler is accepted. -/
theorem register_accepted (h : qtiInterruptSvcRegisterCommon t id type func ctx = (r, t')) :
    (r ≠ 0 ∧ t' = t) ∨ r = 0 ∧ ∃ pre p post, t.entry = pre ++ p :: post ∧ p.free = true ∧
      (∀ x ∈ t.entry, x.id ≠ id) ∧ t' = t.write pre.length ⟨type, func, id, ctx⟩ (t.cnt + 1) := by
  unfold qtiInterruptSvcRegisterCommon at h
  split at h
  · cases h
    exact .inl ⟨by decide, rfl⟩
  split at h
  · cases h
    exact .inl ⟨by decide, rfl⟩
  have hfound := search_found (fun p : Isr => p.id == id) Isr.free t.entry 0
  generalize search (fun p : Isr => p.id == id) Isr.free t.entry 0 none = found at hfound h
  cases hfound with
  | none _ _ =>
    cases h
    exact .inl ⟨by decide, rfl⟩
  | hit _ _ =>
    cases h
    exact .inl ⟨by decide, rfl⟩
  | @free pre post p hsplit hp hmiss =>
    cases h
    rw [Nat.zero_add]
    exact .inr ⟨rfl, pre, p, post, hsplit, hp, fun x hx => beq_eq_false_iff_ne.mp (hmiss x hx), rfl⟩

theorem register_consistent (hc : Consistent t)
    (h : qtiInterruptSvcRegisterCommon t id type func ctx = (r, t')) : Consistent t' := by
  obtain ⟨-, rfl⟩ | ⟨-, pre, p, post, hsplit, hp, hnew, rfl⟩ := register_accepted h
  · exact hc
  have hid : id ≠ QTI_INTR_INVALID_INT_NUM := by
    intro hid
    exact hnew p (mem_of_split hsplit) ((Isr.free_iff.mp hp).trans hid.symm)
  have hfree : Isr.free ⟨type, func, id, ctx⟩ = false :=
    Bool.eq_false_iff.mpr fun hf => hid (Isr.free_iff.mp hf)
  have hnumbers : (t.write pre.length ⟨type, func, id, ctx⟩ (t.cnt + 1)).numbers =
      id ::ₘ t.numbers := by
    rw [IsrTable.numbers, IsrTable.numbers, IsrTable.write_split hsplit, hsplit, held_split,
      held_split, hfree, hp]
    simp
  constructor
  · rw [← IsrTable.card_numbers, hnumbers, Multiset.card_cons, IsrTable.card_numbers, ← hc.count]
    rfl
  · rw [hnumbers]
    refine Multiset.nodup_cons.mpr ⟨?_, hc.distinct⟩
    intro hmem
    obtain ⟨x, hx, -, hxid⟩ := mem_held.mp hmem
    exact hnew x hx hxid

theorem register_succeeds (hc : Consistent t) (hfunc : func ≠ 0) (hcnt : t.cnt < ISR_TABLE_LEN)
    (hnew : id ∉ t.numbers) (hid : id ≠ QTI_INTR_INVALID_INT_NUM) :
    (qtiInterruptSvcRegisterCommon t id type func ctx).1 = 0 := by
  rw [qtiInterruptSvcRegisterCommon, if_neg hfunc, if_neg (Nat.not_le.mpr hcnt)]
  have hfound := search_found (fun p : Isr => p.id == id) Isr.free t.entry 0
  generalize search (fun p : Isr => p.id == id) Isr.free t.entry 0 none = found at hfound
  cases hfound with
  | free _ _ _ => rfl
  | @hit pre post p hsplit hp =>
    have hpid : p.id = id := beq_iff_eq.mp hp
    have hmem := IsrTable.mem_numbers (mem_of_split hsplit) (hpid ▸ hid)
    exact absurd (hpid ▸ hmem) hnew
  | none _ hfull =>
    -- without a free entry all 64 are counted
    have hall : t.occupied = t.entry.length :=
      List.countP_eq_length.mpr fun p hp => by rw [hfull p hp]; rfl
    rw [hc.count, hall, t.len] at hcnt
    exact absurd hcnt (Nat.lt_irrefl _)

/-- An accepted call clears an entry that carries the number. -/
theorem unregister_accepted (h : qtiInterruptSvcUnregisterCommon t id = (r, t')) :
    (r = -ENOENT ∧ t' = t) ∨ r = 0 ∧ t.cnt ≠ 0 ∧ ∃ pre p post, t.entry = pre ++ p :: post ∧
      p.id = id ∧ (t.entry.findIdx? fun p => p.id == id) = some pre.length ∧
      t' = t.write pre.length .cleared (t.cnt - 1) := by
  unfold qtiInterruptSvcUnregisterCommon at h
  split at h
  · cases h
    exact .inl ⟨rfl, rfl⟩
  next hcnt =>
  split at h
  · next i hi =>
    obtain ⟨pre, p, post, hsplit, rfl, hp⟩ := findIdx?_split hi
    cases h
    exact .inr ⟨rfl, hcnt, pre, p, post, hsplit, beq_iff_eq.mp hp, hi, rfl⟩
  · cases h
    exact .inl ⟨rfl, rfl⟩

theorem numbers_cleared {pre post : List Isr} {p : Isr} (hsplit : t.entry = pre ++ p :: post)
    (cnt : ℕ) : t.numbers = (if p.free then 0 else {p.id}) +
      (t.write pre.length .cleared cnt).numbers := by
  have hcleared : Isr.cleared.free = true := rfl
  rw [IsrTable.numbers, IsrTable.numbers, IsrTable.write_split hsplit, hsplit, held_split,
    held_split pre post .cleared, hcleared]
  simp

theorem unregister_consistent (hc : Consistent t) (hid : id ≠ QTI_INTR_INVALID_INT_NUM)
    (h : qtiInterruptSvcUnregisterCommon t id = (r, t')) : Consistent t' := by
  obtain ⟨-, rfl⟩ | ⟨-, -, pre, p, post, hsplit, rfl, -, rfl⟩ := unregister_accepted h
  · exact hc
  have hnumbers := numbers_cleared hsplit (t.cnt - 1)
  have hfree : p.free = false := Bool.eq_false_iff.mpr fun hf => hid (Isr.free_iff.mp hf)
  rw [hfree, if_neg Bool.false_ne_true, Multiset.singleton_add] at hnumbers
  constructor
  · rw [← IsrTable.card_numbers]
    have hcard := congrArg Multiset.card hnumbers
    rw [Multiset.card_cons, IsrTable.card_numbers, ← hc.count] at hcard
    change t.cnt - 1 = _
    omega
  · have hdistinct := hc.distinct
    rw [hnumbers] at hdistinct
    exact (Multiset.nodup_cons.mp hdistinct).2

/-- The number is that of no entry, or of free ones while nothing is counted. -/
theorem unregister_refused (h : t.cnt = 0 ∨ ∀ p ∈ t.entry, p.id ≠ id) :
    qtiInterruptSvcUnregisterCommon t id = (-ENOENT, t) := by
  cases hu : qtiInterruptSvcUnregisterCommon t id with
  | mk r t' =>
    obtain ⟨rfl, rfl⟩ | ⟨-, hcnt, pre, p, post, hsplit, rfl, -⟩ := unregister_accepted hu
    · rfl
    obtain h0 | hmiss := h
    · exact absurd h0 hcnt
    · exact absurd rfl (hmiss p (mem_of_split hsplit))

theorem unregister_marker_accepted (hcnt : t.cnt ≠ 0) {p : Isr} (hp : p ∈ t.entry)
    (hfree : p.free = true) :
    (qtiInterruptSvcUnregisterCommon t QTI_INTR_INVALID_INT_NUM).1 = 0 := by
  rw [qtiInterruptSvcUnregisterCommon, if_neg hcnt]
  split
  · rfl
  · next hnone => exact absurd hfree (Bool.eq_false_iff.mp (List.findIdx?_eq_none_iff.mp hnone p hp))

end Lemmas

/-! ## Sequences of calls -/

inductive IsrCall where
  | register (id : UInt32) (type : IsrHandlerType) (func ctx : UInt64)
  | unregister (id : UInt32)

def IsrCall.perform (t : IsrTable) : IsrCall → Int × IsrTable
  | .register id type func ctx => qtiInterruptSvcRegisterCommon t id type func ctx
  | .unregister id => qtiInterruptSvcUnregisterCommon t id

/-- What a call made in a table may do. -/
structure Right (t : IsrTable) (call : IsrCall) : Prop where
  kept : Consistent (call.perform t).2
  unknown : ∀ id, call = .unregister id → id ∉ t.numbers → call.perform t = (-ENOENT, t)
  succeeds : ∀ id type func ctx, call = .register id type func ctx → func ≠ 0 →
    t.cnt < ISR_TABLE_LEN → id ∉ t.numbers → id ≠ QTI_INTR_INVALID_INT_NUM →
    (call.perform t).1 = 0

/-- The number of the free entries is not unregistered while some entry is free and another one is
counted. -/
def MarkerUnused (t : IsrTable) (call : IsrCall) : Prop :=
  call = .unregister QTI_INTR_INVALID_INT_NUM → t.cnt = 0 ∨ ∀ p ∈ t.entry, p.free = false

theorem right_iff {t : IsrTable} (hc : Consistent t) (call : IsrCall) :
    Right t call ↔ MarkerUnused t call := by
  cases call with
  | register id type func ctx =>
    refine iff_of_true ⟨register_consistent hc rfl, ?_, ?_⟩ ?_
    · intro _ h
      cases h
    · intro id' type' func' ctx' h
      cases h
      exact register_succeeds hc
    · intro h
      cases h
  | unregister id =>
    constructor
    · intro hright hmarker
      cases hmarker
      by_contra hno
      rw [not_or, not_forall] at hno
      obtain ⟨hcnt, p, hp⟩ := hno
      rw [Classical.not_imp, Bool.not_eq_false] at hp
      have haccepted := unregister_marker_accepted hcnt hp.1 hp.2
      have hnot : QTI_INTR_INVALID_INT_NUM ∉ t.numbers := by
        intro hmem
        obtain ⟨x, -, hx, hxid⟩ := mem_held.mp hmem
        rw [Isr.free_iff.mpr hxid] at hx
        cases hx
      have hrefused := congrArg Prod.fst (hright.unknown _ rfl hnot)
      exact absurd (haccepted.symm.trans hrefused) (by decide : (0 : Int) ≠ -ENOENT)
    · intro hunused
      by_cases hid : id = QTI_INTR_INVALID_INT_NUM
      · have hrefused : qtiInterruptSvcUnregisterCommon t id = (-ENOENT, t) := by
          refine unregister_refused ((hunused (by rw [hid])).imp_right fun hfull p hp hpid => ?_)
          have hfalse := hfull p hp
          rw [Isr.free_iff.mpr (hpid.trans hid)] at hfalse
          cases hfalse
        refine ⟨?_, fun id' h _ => ?_, fun _ _ _ _ h => nomatch h⟩
        · change Consistent (qtiInterruptSvcUnregisterCommon t id).2
          rw [hrefused]
          exact hc
        · cases h
          exact hrefused
      · refine ⟨unregister_consistent hc hid rfl, fun id' h hnew => ?_, fun _ _ _ _ h => nomatch h⟩
        cases h
        refine unregister_refused (Or.inr fun p hp hpid => hnew ?_)
        exact hpid ▸ IsrTable.mem_numbers hp (hpid ▸ hid)

def IsrTable.step (t : IsrTable) (call : IsrCall) : Option (IsrTable × Int) :=
  some ((call.perform t).2, (call.perform t).1)

/-- In every run without such a call the table is consistent, and a next call does what it may
exactly when it is not one. -/
theorem isrTable_right {trace : List (IsrCall × Int)} {t : IsrTable}
    (h : Traced (Performs IsrTable.step MarkerUnused) isrTable trace t) :
    Consistent t ∧ ∀ call, Right t call ↔ MarkerUnused t call := by
  have hc : Consistent t := by
    refine Traced.invariant (I := fun _ t => Consistent t) h consistent_isrTable ?_
    rintro _ u ⟨call, r⟩ v hu ⟨hunused, hstep⟩
    obtain rfl : (call.perform u).2 = v := congrArg Prod.fst (Option.some.inj hstep)
    exact ((right_iff hu call).mpr hunused).kept
  exact ⟨hc, right_iff hc⟩

theorem isrTable_right_registered : ∃ trace t,
    Traced (Performs IsrTable.step MarkerUnused) isrTable trace t ∧ t.cnt = 1 ∧ Consistent t ∧
      ∀ call, Right t call ↔ MarkerUnused t call := by
  have hrun : Traced (Performs IsrTable.step MarkerUnused) isrTable
      ([] ++ [(.register 5 .QTI_ISR_HANDLER_CTX_ONLY 0x80 0, 0)])
      (qtiInterruptSvcRegisterCommon isrTable 5 .QTI_ISR_HANDLER_CTX_ONLY 0x80 0).2 :=
    .snoc .nil ⟨fun h => (nomatch h), rfl⟩
  exact ⟨_, _, hrun, rfl, isrTable_right hrun⟩

/-- The reserved number is unregistered although nobody registered it: interrupt 5 is still in the
table, is not counted any more and cannot be unregistered. -/
theorem marker_unregistered :
    let t := (qtiInterruptSvcRegisterCommon isrTable 5 .QTI_ISR_HANDLER_CTX_ONLY 0x80 0).2
    let u := (qtiInterruptSvcUnregisterCommon t QTI_INTR_INVALID_INT_NUM).2
    t.cnt = 1 ∧ (qtiInterruptSvcUnregisterCommon t QTI_INTR_INVALID_INT_NUM).1 = 0 ∧
      u.cnt = 0 ∧ u.occupied = 1 ∧ (qtiInterruptSvcUnregisterCommon u 5).1 = -ENOENT := by
  decide

end TrustedFirmware.Qti

import TrustedFirmware.Io.Fip
import TrustedFirmware.Foundations.Runs

/-! # One open file

The driver's calls in any order, on any number of entities, with the package and the backend free to
change from call to call. As long as no entry at offset 0 is opened, the offset in the file state is
non-zero exactly while an entity is open, and this is what keeps a second open out. -/
namespace TrustedFirmware.Io.Fip
open Runs
set_option autoImplicit false

structure Sys where
  cur : FileState
  /-- The entities whose `info` points to the file state. -/
  opened : List ℕ
  deriving DecidableEq

def init : Sys := ⟨zeroed, []⟩

inductive Call where
  | open (b : Backend) (fipSize : UInt64) (uuid : List UInt8) (entity : ℕ)
  | read (b : Backend) (entity : ℕ) (length : UInt64)
  | close (entity : ℕ)

def perform (s : Sys) : Call → Option (Sys × Int)
  | .open b fipSize uuid entity =>
    if entity ∈ s.opened then none
    else
      let (cur, result) := fipFileOpen b fipSize uuid s.cur
      some (⟨cur, if result = 0 then entity :: s.opened else s.opened⟩, result)
  | .read b entity length =>
    if entity ∈ s.opened then
      let (cur, data) := fipFileRead b s.cur length
      some (⟨cur, s.opened⟩, match data with | .ok _ => 0 | .error result => result)
    else none
  | .close entity =>
    if entity ∈ s.opened then some (⟨fipFileClose s.cur, s.opened.erase entity⟩, 0) else none

/-- No open succeeds with an entry at offset 0. -/
def NotAtZero (s : Sys) : Call → Prop
  | .open b fipSize uuid _ => (fipFileOpen b fipSize uuid s.cur).2 = 0 →
      (fipFileOpen b fipSize uuid s.cur).1.entry.offsetAddress ≠ 0
  | _ => True

/-- At most one entity is open; an open is refused while one is, and changes nothing; nothing is left
of a file when none is open. -/
structure Exclusive (s : Sys) : Prop where
  one : s.opened.length ≤ 1
  refused : s.opened ≠ [] → ∀ b fipSize uuid entity s' result,
    perform s (.open b fipSize uuid entity) = some (s', result) → result ≠ 0 ∧ s' = s
  clear : s.opened = [] → s.cur = zeroed

/-- The offset tells whether a file is open. -/
structure Told (s : Sys) : Prop where
  one : s.opened.length ≤ 1
  offset : s.opened ≠ [] → s.cur.entry.offsetAddress ≠ 0
  clear : s.opened = [] → s.cur = zeroed

theorem fipFileOpen_refused {b : Backend} {fipSize : UInt64} {uuid : List UInt8} {cur : FileState}
    (h : cur.entry.offsetAddress ≠ 0) :
    (fipFileOpen b fipSize uuid cur).1 = cur ∧ (fipFileOpen b fipSize uuid cur).2 ≠ 0 := by
  obtain hkept | ⟨hzero, -⟩ | ⟨hzero, -⟩ := fipFileOpen_cases b fipSize uuid cur
  · exact hkept
  · exact absurd hzero h
  · exact absurd hzero h

theorem perform_open {s s' : Sys} {b : Backend} {fipSize : UInt64} {uuid : List UInt8} {entity : ℕ}
    {result : Int} (h : perform s (.open b fipSize uuid entity) = some (s', result)) :
    result = (fipFileOpen b fipSize uuid s.cur).2 ∧ s' = ⟨(fipFileOpen b fipSize uuid s.cur).1,
      if (fipFileOpen b fipSize uuid s.cur).2 = 0 then entity :: s.opened else s.opened⟩ := by
  rw [perform] at h
  split at h
  · exact absurd h nofun
  · cases h
    exact ⟨rfl, rfl⟩

theorem Told.exclusive {s : Sys} (h : Told s) : Exclusive s where
  one := h.one
  clear := h.clear
  refused := by
    intro hopen b fipSize uuid entity s' result hs
    obtain ⟨hcur, hresult⟩ := @fipFileOpen_refused b fipSize uuid s.cur (h.offset hopen)
    obtain ⟨rfl, rfl⟩ := perform_open hs
    rw [if_neg hresult, hcur]
    exact ⟨hresult, rfl⟩

theorem fipFileRead_entry (b : Backend) (fp : FileState) (length : UInt64) :
    (fipFileRead b fp length).1.entry = fp.entry := by
  unfold fipFileRead
  dsimp only
  repeat (split; · rfl)
  rfl

theorem Told.opened_nil {s : Sys} (h : Told s) (hzero : s.cur.entry.offsetAddress = 0) :
    s.opened = [] := by
  by_contra hne
  exact h.offset hne hzero

theorem Told.open_step {s s' : Sys} {b : Backend} {fipSize : UInt64} {uuid : List UInt8} {entity : ℕ}
    {result : Int} (h : Told s) (hc : NotAtZero s (.open b fipSize uuid entity))
    (hs : perform s (.open b fipSize uuid entity) = some (s', result)) : Told s' := by
  obtain ⟨-, rfl⟩ := perform_open hs
  obtain ⟨hcur, hresult⟩ | ⟨hzero, hcur, hresult⟩ | ⟨hzero, e, hscan, hbounds, hfound⟩ :=
    fipFileOpen_cases b fipSize uuid s.cur
  · rw [hcur, if_neg hresult]
    exact h
  · rw [hcur, if_neg hresult, h.opened_nil hzero]
    exact ⟨by simp, fun hne => absurd rfl hne, fun _ => rfl⟩
  · rw [NotAtZero, hfound] at hc
    rw [hfound, if_pos rfl, h.opened_nil hzero]
    exact ⟨by simp, fun _ => hc rfl, nofun⟩

theorem Told.step {s s' : Sys} {c : Call} {result : Int} (h : Told s) (hc : NotAtZero s c)
    (hs : perform s c = some (s', result)) : Told s' := by
  cases c with
  | «open» b fipSize uuid entity => exact h.open_step hc hs
  | read b entity length =>
    rw [perform] at hs
    split at hs
    · next hmem =>
      have hne : s.opened ≠ [] := List.ne_nil_of_mem hmem
      have hentry := fipFileRead_entry b s.cur length
      generalize fipFileRead b s.cur length = r at hs hentry
      cases hs
      exact ⟨h.one, fun _ => hentry ▸ h.offset hne, fun hnil => absurd hnil hne⟩
    · exact absurd hs nofun
  | close entity =>
    rw [perform] at hs
    split at hs
    · next hmem =>
      cases hs
      have honly : s.opened.erase entity = [] := by
        have hlength := List.length_erase_of_mem hmem
        exact List.eq_nil_of_length_eq_zero (by have := h.one; omega)
      rw [honly, fipFileClose, if_pos (h.offset (List.ne_nil_of_mem hmem))]
      exact ⟨by simp, fun hne => absurd rfl hne, fun _ => rfl⟩
    · exact absurd hs nofun

def oneEntry (offset : UInt8) : Backend where
  mem := fun i => if i = 16 ∨ i = 40 then 1 else if i = 32 then offset else 0
  ioOpen := 0
  ioSeek := fun _ => 0
  ioRead := fun _ n => (0, n)

end TrustedFirmware.Io.Fip

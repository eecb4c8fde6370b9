import TrustedFirmware.Spmc.HandleWrap

/-! # The datastore stays a tiling

Over every run the objects fill the allocated part of the datastore without a gap, with
sizes that are multiples of 16, and a call changes no object but its own. -/
namespace TrustedFirmware.Spmc
open ByteMemory RecordTiling
set_option autoImplicit false

variable {P : Platform} {s : State}

structure WellFormed (s : Datastore) : Prop where
  tiles : Tiles objFormat s.data 0 s.allocated (liveObjects s)
  aligned : ∀ o ∈ liveObjects s, o.descSize % 16 = 0
  fits : s.allocated ≤ s.dataSize

/-- A call that is answered with `r` changes no object but the one it names, and that one only as the
answer tells: `outcome` lists the changes, and a call that is refused leaves all objects as they were,
or gives up the one that was being received. -/
structure OnlySubject (P : Platform) (c : Call) (r : Reply) (s s' : State) : Prop where
  others : others (subject c s.store.nextHandle) (liveObjects s'.store) =
    others (subject c s.store.nextHandle) (liveObjects s.store)
  outcome : Change P s.ns.ffaVersion (s.endpoint c.secureOrigin).ffaVersion c r
    s.store.nextHandle (liveObjects s.store) s'.store.nextHandle (liveObjects s'.store)

theorem run_datastore {b : Boot} {t : List (Call × Reply)} (hrun : Run P b.state t s) :
    WellFormed s.store ∧ (sends t ≤ 2 ^ 64 → (handles (liveObjects s.store)).Nodup) ∧
      ∀ c r s', spmcSmcHandler P s c = some (s', r) → OnlySubject P c r s s' := by
  obtain ⟨objs, hinv, -, hissued⟩ := hrun.issued
  have hlive := hinv.stored.liveObjects_eq
  refine ⟨⟨?_, ?_, hinv.stored.fits⟩, ?_, ?_⟩
  · rw [hlive]
    exact hinv.stored.tiles
  · rw [hlive]
    exact fun o ho => (hinv.live o ho).aligned
  · intro hsends
    obtain ⟨n, -, hi⟩ := hissued hsends
    rw [hlive]
    exact hi.nodup
  · intro c r s' hres
    obtain ⟨objs', hinv', hchange, -⟩ := smcHandler_step hinv (fun _ _ _ _ => trivial) hres
    have hlive' := hinv'.stored.liveObjects_eq
    refine ⟨?_, ?_⟩
    · rw [hlive, hlive']
      exact hchange.others_eq
    · rw [hlive, hlive']
      exact hchange

theorem run_datastore_send : ∃ t s, Run onePartition (bootV11 256 (by decide)).state t s ∧
    sends t ≤ 2 ^ 64 ∧ (liveObjects s.store).length = 1 ∧ WellFormed s.store ∧
    (handles (liveObjects s.store)).Nodup ∧
    ∀ c r s', spmcSmcHandler onePartition s c = some (s', r) → OnlySubject onePartition c r s s' := by
  obtain ⟨t, s, hrun, hq⟩ := @execute_run onePartition
    (fun t s => decide (sends t ≤ 2 ^ 64 ∧ (liveObjects s.store).length = 1))
    (bootV11 256 (by decide)).state
    (setUp 0x10001 ++ [.memSend false false 96 96 0 0 (descriptorV11 0 [0x8001] [(0x1000, 1)])])
    (by decide +kernel)
  obtain ⟨hsends, hlen⟩ := of_decide_eq_true hq
  obtain ⟨hwell, hdistinct, honly⟩ := run_datastore hrun
  exact ⟨t, s, hrun, hsends, hlen, hwell, hdistinct hsends, honly⟩

/-- The handles repeat in the end, and a hypervisor's retrieve, which counts for nothing, stores
its shift in the object. -/
theorem datastore_counterexample :
    (∃ t s, Run onePartition (bootV11 256 (by decide)).state t s ∧
      ¬ (handles (liveObjects s.store)).Nodup) ∧
    ∃ t s r s', Run onePartition (bootV11 256 (by decide)).state t s ∧
      spmcSmcHandler onePartition s
        (.memRetrieveReq false 48 48 0 0 (requestV11 0xffffffc0 0 [])) = some (s', r) ∧
      (liveObjects s'.store).map Obj.inUse = (liveObjects s.store).map Obj.inUse ∧
      (liveObjects s'.store).map Obj.hypShift ≠ (liveObjects s.store).map Obj.hypShift := by
  refine ⟨handles_repeat, ?_⟩
  obtain ⟨t, s, r, s', hrun, hstep, hq⟩ := @execute_step onePartition
    (fun s _ s' => decide ((liveObjects s'.store).map Obj.inUse = (liveObjects s.store).map Obj.inUse ∧
      (liveObjects s'.store).map Obj.hypShift ≠ (liveObjects s.store).map Obj.hypShift))
    (bootV11 256 (by decide)).state
    (setUp 0x10001 ++
      [.memSend false false 112 112 0 0 (descriptorV11 0 [0x8001, 1] [(0x1000, 1)])])
    (.memRetrieveReq false 48 48 0 0 (requestV11 0xffffffc0 0 [])) (by decide +kernel)
  exact ⟨t, s, r, s', hrun, hstep, of_decide_eq_true hq⟩

end TrustedFirmware.Spmc

import Mathlib.Data.Nat.Digits.Defs
import TrustedFirmware.Auth.Module
import TrustedFirmware.Foundations.Runs
import TrustedFirmware.Foundations.Programs

/-! # The non-volatile counters

Whatever images are verified against whatever tables, the counters of the platform never go down.
One is raised only to the number in a certificate whose signature was verified, and a certificate
with a smaller number is not accepted. -/
namespace TrustedFirmware.Auth
open Runs Staged
set_option autoImplicit false

variable {ι β κ : Type}
variable {C : ι → ImgDesc ι β κ} {L : Libraries κ} {A : Answers κ} {s s' : AuthState ι β κ}
  {desc : ImgDesc ι β κ} {img : Data}

/-! ## The encoding -/

/-- A DER encoded integer in the short form that is not negative: tag, length, and the digits to
base 256 with the most significant one first. -/
def DerInteger (data : Data) (v : ℕ) : Prop :=
  ∃ d ds, data = ASN1_INTEGER :: UInt8.ofNat (ds.length + 1) :: d :: ds ∧ ds.length + 1 < 128 ∧
    d &&& 0x80 = 0 ∧ v = Nat.ofDigits 256 ((d :: ds).reverse.map UInt8.toNat)

theorem DerInteger.unique {data : Data} {v w : ℕ} (hv : DerInteger data v) (hw : DerInteger data w) :
    v = w := by
  obtain ⟨d, ds, rfl, -, -, rfl⟩ := hv
  obtain ⟨d', ds', heq, -, -, rfl⟩ := hw
  simp only [List.cons.injEq] at heq
  obtain ⟨-, -, rfl, rfl⟩ := heq
  rfl

theorem foldl_digits (ds : Data) :
    ds.foldl (fun n b => n * 256 + b.toNat) 0 = Nat.ofDigits 256 (ds.reverse.map UInt8.toNat) := by
  induction ds using List.reverseRecOn with
  | nil => rfl
  | append_singleton ds d ih =>
    rw [List.foldl_append, List.foldl_cons, List.foldl_nil, ih, List.reverse_append,
      List.reverse_singleton, List.singleton_append, List.map_cons, Nat.ofDigits_cons]
    omega

theorem decodeNvCtr_ok {data : Data} {v : ℕ} (h : decodeNvCtr data = .ok v) : DerInteger data v := by
  unfold decodeNvCtr at h
  split at h
  · rename_i tag len d ds
    split at h
    · cases h
    rename_i htag
    split at h
    · cases h
    rename_i hlen
    split at h
    · cases h
    rename_i hsign
    rw [Except.ok.injEq, foldl_digits] at h
    have heq : ds.length + 1 = len.toNat := by omega
    refine ⟨d, ds, ?_, by omega, not_not.mp hsign, h.symm⟩
    rw [not_not.mp htag, heq, UInt8.ofNat_toNat]
  · cases h

def CertCounter (L : Libraries κ) (desc : ImgDesc ι β κ) (img : Data) (m : NvCtrParam κ) (v : ℕ) :
    Prop :=
  ∃ data, L.getAuthParam desc.imgType m.certNvCtr img = .ok data ∧ DerInteger data v

theorem CertCounter.unique {m : NvCtrParam κ} {v w : ℕ} (hv : CertCounter L desc img m v)
    (hw : CertCounter L desc img m w) : v = w := by
  obtain ⟨data, hdata, hv⟩ := hv
  obtain ⟨data', hdata', hw⟩ := hw
  rw [hdata, Except.ok.injEq] at hdata'
  subst hdata'
  exact hv.unique hw

/-! ## The signature -/

/-- The key is the root key of the platform, where one is deployed. -/
def RootKey (L : Libraries κ) (pk : Data) : Rotpk → Prop
  | .notDeployed => True
  | .hash digest => ∃ cnv, L.convertPk pk = .ok cnv ∧ L.verifyHash cnv digest = 0
  | .full key => pk = key

/-- The key for an image: what its parent has handed down, or in a root certificate its own. -/
def SigningKey (C : ι → ImgDesc ι β κ) (L : Libraries κ) (s : AuthState ι β κ) (param : SigParam κ)
    (desc : ImgDesc ι β κ) (img pk : Data) : Prop :=
  match desc.parent with
  | some p => ∃ d ∈ (C p).authenticatedData, d.typeDesc = param.pk ∧ s.buffers d.ptr = pk
  | none => L.getAuthParam desc.imgType param.pk img = .ok pk ∧
    ∃ rotpk, L.getRotpkInfo param.pk.cookie = .ok rotpk ∧ RootKey L pk rotpk

/-- The crypto module has accepted the image's signature on the image's data with that key. -/
def SignatureVerified (C : ι → ImgDesc ι β κ) (L : Libraries κ) (s : AuthState ι β κ)
    (param : SigParam κ) (desc : ImgDesc ι β κ) (img : Data) : Prop :=
  ∃ data sig alg pk, L.getAuthParam desc.imgType param.data img = .ok data ∧
    L.getAuthParam desc.imgType param.sig img = .ok sig ∧
    L.getAuthParam desc.imgType param.alg img = .ok alg ∧
    SigningKey C L s param desc img pk ∧ L.verifySignature data sig alg pk = 0

theorem succeed_ok {rc : Int} {u : Unit} (h : succeed rc = .ok u) : rc = 0 := by
  rw [succeed] at h
  split at h
  · assumption
  · cases h

theorem rotpkCheck_ok {rotpk : Rotpk} {pk : Data} {u : Unit} (h : rotpkCheck L rotpk pk = .ok u) :
    RootKey L pk rotpk := by
  cases rotpk with
  | notDeployed => trivial
  | hash digest =>
    obtain ⟨cnv, hcnv, h⟩ := bind_ok h
    exact ⟨cnv, hcnv, succeed_ok h⟩
  | full key =>
    rw [rotpkCheck] at h
    split at h
    · assumption
    · cases h

theorem extractParams_frame [DecidableEq β] {imgType : ImgType} (ds : List (ParamDesc β κ)) :
    (extractParams L A s imgType img ds).1.nvCtr = s.nvCtr ∧
    (extractParams L A s imgType img ds).1.authenticated = s.authenticated := by
  induction ds generalizing s with
  | nil => exact ⟨rfl, rfl⟩
  | cons d ds ih =>
    rw [extractParams]
    split
    · exact ⟨rfl, rfl⟩
    split
    · exact ⟨rfl, rfl⟩
    split
    · exact ⟨rfl, rfl⟩
    · exact ih

section
variable [DecidableEq κ]

theorem authGetParam_ok {typeDesc : ParamTypeDesc κ} {data : Data}
    (h : authGetParam s typeDesc desc = .ok data) :
    ∃ d ∈ desc.authenticatedData, d.typeDesc = typeDesc ∧ s.buffers d.ptr = data := by
  rw [authGetParam] at h
  split at h
  next d hd =>
    exact ⟨d, List.mem_of_find?_eq_some hd, by simpa using List.find?_some hd, Except.ok.inj h⟩
  next => cases h

theorem signatureKey_ok {param : SigParam κ} {key : Checked κ × Data}
    (h : signatureKey C L A s param desc img = .ok key) : SigningKey C L s param desc img key.2 := by
  rw [signatureKey] at h
  split at h
  next p hp =>
    obtain ⟨pk, hpk, h⟩ := bind_ok h
    cases h
    rw [SigningKey, hp]
    exact authGetParam_ok hpk
  next hp =>
    obtain ⟨rotpk, hrotpk, h⟩ := bind_ok h
    obtain ⟨pk, hpk, h⟩ := bind_ok h
    obtain ⟨_, hroot, h⟩ := bind_ok h
    obtain ⟨-, -, h⟩ := bind_ok h
    cases h
    rw [SigningKey, hp]
    exact ⟨hpk, rotpk, hrotpk, rotpkCheck_ok hroot⟩

theorem authSignature_ok {param : SigParam κ} {c : Checked κ}
    (h : authSignature C L A s param desc img = .ok c) : SignatureVerified C L s param desc img := by
  obtain ⟨data, hdata, h⟩ := bind_ok h
  obtain ⟨sig, hsig, h⟩ := bind_ok h
  obtain ⟨alg, halg, h⟩ := bind_ok h
  obtain ⟨key, hkey, h⟩ := bind_ok h
  obtain ⟨_, hverify, _⟩ := bind_ok h
  exact ⟨data, sig, alg, key.2, hdata, hsig, halg, signatureKey_ok hkey, succeed_ok hverify⟩

end

/-! ## The methods -/

theorem authNvctr_ok {m : NvCtrParam κ} {need : Bool} {r : ℕ × Bool}
    (h : authNvctr L A s m desc img need = .ok r) :
    CertCounter L desc img m r.1 ∧ s.nvCtr m.platNvCtr.cookie ≤ r.1 := by
  rw [authNvctr] at h
  obtain ⟨data, hdata, h⟩ := bind_ok h
  obtain ⟨v, hv, h⟩ := bind_ok h
  obtain ⟨-, -, h⟩ := bind_ok h
  have hcert : CertCounter L desc img m v := ⟨data, hdata, decodeNvCtr_ok hv⟩
  split at h
  · cases h
  rename_i hle
  split at h
  · cases h
    exact ⟨hcert, by omega⟩
  · cases h
    exact ⟨hcert, by omega⟩

def AuthMethod.nvCtr? : AuthMethod κ → Option (NvCtrParam κ)
  | .nvCtr m => some m
  | _ => Option.none

/-- The counters that a table checks, the last one first. -/
def counterParams (ms : List (AuthMethod κ)) : List (NvCtrParam κ) :=
  (ms.filterMap AuthMethod.nvCtr?).reverse

theorem counterParams_snoc (ms : List (AuthMethod κ)) (m : AuthMethod κ) :
    counterParams (ms ++ [m]) = m.nvCtr?.toList ++ counterParams ms := by
  rw [counterParams, List.filterMap_append, List.reverse_append, counterParams]
  cases h : m.nvCtr? <;> simp [h]

theorem mem_counterParams {ms : List (AuthMethod κ)} {m : NvCtrParam κ} :
    m ∈ counterParams ms ↔ .nvCtr m ∈ ms := by
  rw [counterParams, List.mem_reverse, List.mem_filterMap]
  constructor
  · rintro ⟨a, ha, hm⟩
    cases a <;> simp only [AuthMethod.nvCtr?, Option.some.injEq, reduceCtorEq] at hm
    exact hm ▸ ha
  · exact fun h => ⟨_, h, rfl⟩

/-- What the local variables say about the methods that were tried. -/
structure MethodsInv (C : ι → ImgDesc ι β κ) (L : Libraries κ) (s : AuthState ι β κ)
    (desc : ImgDesc ι β κ) (img : Data) (tried : List (AuthMethod κ)) (p : Progress κ) :
    Prop where
  counters : ∀ m, .nvCtr m ∈ tried →
    ∃ v, CertCounter L desc img m v ∧ s.nvCtr m.platNvCtr.cookie ≤ v
  signed : p.sigAuthDone = true →
    ∃ param, .sig param ∈ tried ∧ SignatureVerified C L s param desc img
  last : p.nvCtrParam = (counterParams tried).head?
  cert : ∀ m, p.nvCtrParam = some m →
    CertCounter L desc img m p.certNvCtr ∧ s.nvCtr m.platNvCtr.cookie ≤ p.certNvCtr

theorem MethodsInv.start : MethodsInv C L s desc img [] (.start κ) := by
  constructor
  · simp
  · simp [Progress.start]
  · rfl
  · simp [Progress.start]

theorem MethodsInv.other {tried : List (AuthMethod κ)} {p p' : Progress κ} {m : AuthMethod κ}
    (h : MethodsInv C L s desc img tried p) (hm : m.nvCtr? = none)
    (hp : p'.nvCtrParam = p.nvCtrParam ∧ p'.certNvCtr = p.certNvCtr)
    (hsig : p'.sigAuthDone = p.sigAuthDone ∨
      ∃ param, m = .sig param ∧ SignatureVerified C L s param desc img) :
    MethodsInv C L s desc img (tried ++ [m]) p' := by
  constructor
  · intro n hn
    rcases List.mem_append.mp hn with hn | hn
    · exact h.counters n hn
    · rw [List.mem_singleton] at hn
      subst hn
      cases hm
  · intro hdone
    rcases hsig with heq | ⟨param, rfl, hsig⟩
    · obtain ⟨param, hmem, hsig⟩ := h.signed (heq ▸ hdone)
      exact ⟨param, List.mem_append_left _ hmem, hsig⟩
    · exact ⟨param, by simp, hsig⟩
  · rw [hp.1, h.last, counterParams_snoc, hm]
    rfl
  · rw [hp.1, hp.2]
    exact h.cert

variable [DecidableEq κ]

theorem MethodsInv.method {tried : List (AuthMethod κ)} {p p' : Progress κ} {m : AuthMethod κ}
    (h : MethodsInv C L s desc img tried p) (hm : authMethod C L A s desc img p m = .ok p') :
    MethodsInv C L s desc img (tried ++ [m]) p' := by
  cases m with
  | none =>
    cases hm
    exact h.other rfl ⟨rfl, rfl⟩ (Or.inl rfl)
  | unknown => cases hm
  | hash param =>
    obtain ⟨c, -, hp⟩ := bind_ok hm
    cases hp
    exact h.other rfl ⟨rfl, rfl⟩ (Or.inl rfl)
  | sig param =>
    obtain ⟨c, hc, hp⟩ := bind_ok hm
    cases hp
    exact h.other rfl ⟨rfl, rfl⟩ (Or.inr ⟨param, rfl, authSignature_ok hc⟩)
  | nvCtr param =>
    obtain ⟨n, hn, hp⟩ := bind_ok hm
    cases hp
    obtain ⟨hcert, hle⟩ := authNvctr_ok hn
    constructor
    · intro q hq
      rcases List.mem_append.mp hq with hq | hq
      · exact h.counters q hq
      · rw [List.mem_singleton, AuthMethod.nvCtr.injEq] at hq
        subst hq
        exact ⟨n.1, hcert, hle⟩
    · intro hdone
      obtain ⟨sig, hmem, hsig⟩ := h.signed hdone
      exact ⟨sig, List.mem_append_left _ hmem, hsig⟩
    · rw [counterParams_snoc]
      rfl
    · intro q hq
      cases hq
      exact ⟨hcert, hle⟩

theorem MethodsInv.methods {tried ms : List (AuthMethod κ)} {p p' : Progress κ}
    (h : MethodsInv C L s desc img tried p) (hm : authMethods C L A s desc img p ms = .ok p') :
    MethodsInv C L s desc img (tried ++ ms) p' := by
  induction ms generalizing tried p with
  | nil =>
    cases hm
    rwa [List.append_nil]
  | cons m ms ih =>
    obtain ⟨q, hq, hm⟩ := bind_ok hm
    have hnext := ih (h.method hq) hm
    rwa [List.append_assoc, List.singleton_append] at hnext

theorem authChecks_ok {p : Progress κ} (h : authChecks C L A s desc img = .ok p) :
    ∃ ms, desc.imgAuthMethods = some ms ∧ MethodsInv C L s desc img ms p := by
  obtain ⟨-, -, h⟩ := bind_ok h
  cases hms : desc.imgAuthMethods with
  | none =>
    rw [hms] at h
    cases h
  | some ms =>
    rw [hms] at h
    exact ⟨ms, rfl, MethodsInv.methods .start h⟩

/-! ## One call -/

theorem upgradeNvCtr_nvCtr (s : AuthState ι β κ) (p : Progress κ) (k : Option κ) :
    (upgradeNvCtr A s p).1.nvCtr k = s.nvCtr k ∨
    ∃ m, p.nvCtrParam = some m ∧ m.platNvCtr.cookie = k ∧ p.sigAuthDone = true ∧
      (upgradeNvCtr A s p).1.nvCtr k = p.certNvCtr := by
  rw [upgradeNvCtr]
  split
  · rename_i m hm
    split
    · rename_i hneed
      split
      · by_cases hk : k = m.platNvCtr.cookie
        · subst hk
          exact Or.inr ⟨m, hm, rfl, hneed.2, Function.update_self ..⟩
        · exact Or.inl (Function.update_of_ne hk ..)
      · exact Or.inl rfl
    · exact Or.inl rfl
  · exact Or.inl rfl

theorem upgradeNvCtr_authenticated (s : AuthState ι β κ) (p : Progress κ) :
    (upgradeNvCtr A s p).1.authenticated = s.authenticated := by
  rw [upgradeNvCtr]
  split
  · split
    · split <;> rfl
    · rfl
  · rfl

variable [DecidableEq β] [DecidableEq ι] {id : ι}

theorem authModVerifyImg_cases (id : ι) :
    ((authModVerifyImg C L A s id img).1 = s ∧ ∃ rc, (authModVerifyImg C L A s id img).2 = .error rc) ∨
    ∃ p, authChecks C L A s (C id) img = .ok p ∧
      (authModVerifyImg C L A s id img).1.nvCtr = (upgradeNvCtr A s p).1.nvCtr ∧
      ((∃ rc, (authModVerifyImg C L A s id img).2 = .error rc ∧
          (authModVerifyImg C L A s id img).1.authenticated = s.authenticated) ∨
        (authModVerifyImg C L A s id img).2 = .ok p.checked ∧
          (authModVerifyImg C L A s id img).1.authenticated =
            Function.update s.authenticated id true) := by
  rw [authModVerifyImg]
  cases hc : authChecks C L A s (C id) img with
  | error rc => exact Or.inl ⟨rfl, rc, rfl⟩
  | ok p =>
    obtain ⟨hctr, hauth⟩ := @extractParams_frame _ _ _ L A (upgradeNvCtr A s p).1 img _
      (C id).imgType (C id).authenticatedData
    rw [upgradeNvCtr_authenticated] at hauth
    refine Or.inr ⟨p, rfl, ?_⟩
    dsimp only
    split
    · exact ⟨rfl, Or.inl ⟨_, rfl, upgradeNvCtr_authenticated s p⟩⟩
    split
    · exact ⟨hctr, Or.inl ⟨_, rfl, hauth⟩⟩
    · exact ⟨hctr, Or.inr ⟨rfl, by rw [← hauth]⟩⟩

/-- The table's last counter that is checked against the platform counter `k`. -/
def lastCounter (ms : List (AuthMethod κ)) (k : Option κ) : Option (NvCtrParam κ) :=
  (counterParams ms).find? fun m => m.platNvCtr.cookie = k

structure RollbackSafe (C : ι → ImgDesc ι β κ) (L : Libraries κ) (A : Answers κ)
    (s : AuthState ι β κ) (id : ι) (img : Data) (s' : AuthState ι β κ) : Prop where
  grows : ∀ k, s.nvCtr k ≤ s'.nvCtr k
  signed : ∀ k, s'.nvCtr k ≠ s.nvCtr k → ∃ ms m param, (C id).imgAuthMethods = some ms ∧
    .nvCtr m ∈ ms ∧ m.platNvCtr.cookie = k ∧ CertCounter L (C id) img m (s'.nvCtr k) ∧
    .sig param ∈ ms ∧ SignatureVerified C L s param (C id) img
  /-- The number is not below the counter when it is checked, and not when the image is flagged. -/
  fresh : ∀ c, (authModVerifyImg C L A s id img).2 = .ok c → ∃ ms, (C id).imgAuthMethods = some ms ∧
    (∀ m, .nvCtr m ∈ ms → ∃ v, CertCounter L (C id) img m v ∧ s.nvCtr m.platNvCtr.cookie ≤ v) ∧
    (∀ k m v, lastCounter ms k = some m → CertCounter L (C id) img m v → s'.nvCtr k ≤ v)
  flagged : ∀ i, s'.authenticated i = true → s.authenticated i = true ∨
    i = id ∧ ∃ c, (authModVerifyImg C L A s id img).2 = .ok c

theorem lastCounter_head {ms : List (AuthMethod κ)} {m : NvCtrParam κ}
    (h : (counterParams ms).head? = some m) : lastCounter ms m.platNvCtr.cookie = some m := by
  obtain ⟨rest, hrest⟩ := List.head?_eq_some_iff.mp h
  rw [lastCounter, hrest, List.find?_cons_of_pos (by simp)]

theorem lastCounter_some {ms : List (AuthMethod κ)} {k : Option κ} {m : NvCtrParam κ}
    (h : lastCounter ms k = some m) : .nvCtr m ∈ ms ∧ m.platNvCtr.cookie = k :=
  ⟨mem_counterParams.mp (List.mem_of_find?_eq_some h), by simpa using List.find?_some h⟩

theorem authModVerifyImg_rollbackSafe (s : AuthState ι β κ) (id : ι) (img : Data) :
    RollbackSafe C L A s id img (authModVerifyImg C L A s id img).1 := by
  rcases @authModVerifyImg_cases _ _ _ C L A s img _ _ _ id with
    ⟨hs, rc, hrc⟩ | ⟨p, hp, hctr, hflags⟩
  · rw [hs]
    refine ⟨fun k => le_rfl, fun k hk => absurd rfl hk, fun c hc => ?_, fun i hi => Or.inl hi⟩
    exact absurd (hrc.symm.trans hc) (by simp)
  obtain ⟨ms, hms, hinv⟩ := authChecks_ok hp
  constructor
  · intro k
    rw [hctr]
    rcases @upgradeNvCtr_nvCtr _ _ _ A _ s p k with h | ⟨m, hm, rfl, -, h⟩
    · exact h.ge
    · rw [h]
      exact (hinv.cert m hm).2
  · intro k hk
    rw [hctr] at hk ⊢
    rcases @upgradeNvCtr_nvCtr _ _ _ A _ s p k with h | ⟨m, hm, hmk, hdone, h⟩
    · exact absurd h hk
    · obtain ⟨param, hmem, hsig⟩ := hinv.signed hdone
      rw [hinv.last] at hm
      refine ⟨ms, m, param, hms, ?_, hmk, ?_, hmem, hsig⟩
      · exact mem_counterParams.mp (List.mem_of_mem_head? hm)
      · rw [h]
        exact (hinv.cert m (hinv.last ▸ hm)).1
  · intro c _
    refine ⟨ms, hms, hinv.counters, ?_⟩
    intro k m v hlast hv
    obtain ⟨hmem, hmk⟩ := lastCounter_some hlast
    rw [hctr]
    rcases @upgradeNvCtr_nvCtr _ _ _ A _ s p k with h | ⟨m', hm', hmk', -, h⟩
    · obtain ⟨w, hw, hle⟩ := hinv.counters m hmem
      rw [h, hv.unique hw, ← hmk]
      exact hle
    · -- The counter was raised by the last method of the table, which is then `m`.
      have hhead := hm'
      rw [hinv.last] at hhead
      have hsame := lastCounter_head hhead
      rw [hmk', hlast, Option.some.injEq] at hsame
      subst hsame
      rw [h, hv.unique (hinv.cert m hm').1]
  · intro i hi
    rcases hflags with ⟨rc, -, hauth⟩ | ⟨hok, hauth⟩
    · exact Or.inl (hauth ▸ hi)
    · by_cases hid : i = id
      · exact Or.inr ⟨hid, _, hok⟩
      · rw [hauth, Function.update_of_ne hid] at hi
        exact Or.inl hi

/-! ## All calls -/

structure VerifyCall (ι κ : Type) where
  id : ι
  img : Data
  answers : Answers κ

def verifyCall (C : ι → ImgDesc ι β κ) (L : Libraries κ) (s : AuthState ι β κ)
    (c : VerifyCall ι κ) : Option (AuthState ι β κ × Except Int (List (Checked κ))) :=
  some (authModVerifyImg C L c.answers s c.id c.img)

/-- **No rollback.** Along every sequence of calls the counters of the platform only grow, and each
further call raises one only to the number in a certificate whose signature it verified and flags no
certificate with a smaller number. -/
theorem nv_counter_safe {s₀ : AuthState ι β κ}
    {t : List (VerifyCall ι κ × Except Int (List (Checked κ)))}
    (hrun : Traced (Performs (verifyCall C L) fun _ _ => True) s₀ t s) :
    (∀ k, s₀.nvCtr k ≤ s.nvCtr k) ∧
    ∀ c s' r, verifyCall C L s c = some (s', r) → RollbackSafe C L c.answers s c.id c.img s' := by
  refine ⟨?_, ?_⟩
  · refine hrun.invariant (I := fun _ s => ∀ k, s₀.nvCtr k ≤ s.nvCtr k) (fun k => le_rfl) ?_
    intro t u a v h hstep k
    have hv := congrArg Prod.fst (Option.some.inj hstep.2)
    have hgrows := (@authModVerifyImg_rollbackSafe _ _ _ C L a.1.answers _ _ _ u a.1.id a.1.img).grows k
    rw [hv] at hgrows
    exact (h k).trans hgrows
  · intro c s' r hstep
    have hs' : (authModVerifyImg C L c.answers s c.id c.img).1 = s' :=
      congrArg Prod.fst (Option.some.inj hstep)
    rw [← hs']
    exact authModVerifyImg_rollbackSafe s c.id c.img

/-- A root certificate that is its own counter. -/
def counterCert : Unit → ImgDesc Unit Unit Unit := fun _ =>
  ⟨.cert, none, some [.sig ⟨⟨.pubKey, none⟩, ⟨.sig, none⟩, ⟨.sigAlg, none⟩, ⟨.rawData, none⟩⟩,
    .nvCtr ⟨⟨.nvCtr, some ()⟩, ⟨.nvCtr, some ()⟩⟩], []⟩

def acceptAll : Libraries Unit :=
  ⟨fun _ _ => 0, fun _ _ img => .ok img, fun _ _ => 0, fun _ _ _ _ => 0, fun pk => .ok pk,
    fun _ => .ok .notDeployed⟩

def obliging : Answers Unit := ⟨fun _ => 0, fun _ => 0, true, fun _ _ => 0⟩

theorem nv_counter_safe_nine : ∃ t s,
    Traced (Performs (verifyCall counterCert acceptAll) fun _ _ => True)
      ⟨fun _ => false, fun _ => [], fun _ => 3⟩ t s ∧
    s.nvCtr (some ()) = 4 ∧
    RollbackSafe counterCert acceptAll obliging s () [2, 2, 0, 9]
      (authModVerifyImg counterCert acceptAll obliging s () [2, 2, 0, 9]).1 := by
  obtain ⟨t, s, hrun, hq⟩ := @execute_traced _ _ _ (verifyCall counterCert acceptAll)
    (fun _ _ => True) _ (fun _ s => decide (s.nvCtr (some ()) = 4))
    ⟨fun _ => false, fun _ => [], fun _ => 3⟩ [⟨(), [2, 1, 4], obliging⟩] (by decide +kernel)
  exact ⟨t, s, hrun, of_decide_eq_true hq,
    (nv_counter_safe hrun).2 ⟨(), [2, 2, 0, 9], obliging⟩ _ _ rfl⟩

end TrustedFirmware.Auth

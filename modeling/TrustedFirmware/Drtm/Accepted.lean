import TrustedFirmware.Drtm.Measured

/-! # The launch arguments that are accepted

The sums of `drtm_dl_check_args()` are taken modulo 2^64. Each comparison of an end with its start
rules out that the end has wrapped, and the image has no room but in front of the DLME data. The data
region is compared with the minimum size in bytes, while the caller is told the number of pages. -/
namespace TrustedFirmware.Drtm
open Staged
set_option autoImplicit false

structure Placed (P : Platform) (a : DlArgs) : Prop where
  dlme : a.dlmePaddr.toNat + a.dlmeSize.toNat < 2 ^ 64
  image_pos : 0 < a.dlmeImgSize.toNat
  image : a.dlmeImgOff.toNat + a.dlmeImgSize.toNat ≤ a.dlmeDataOff.toNat
  data : a.dlmeDataOff.toNat < a.dlmeSize.toNat
  entry : a.dlmeImgEpOff.toNat < a.dlmeImgSize.toNat
  dlme_aligned : a.dlmePaddr.toNat % 4096 = 0
  image_aligned : (a.dlmePaddr.toNat + a.dlmeImgOff.toNat) % 4096 = 0
  data_aligned : (a.dlmePaddr.toNat + a.dlmeDataOff.toNat) % 4096 = 0
  room : P.dlmeDataMinSize.toNat ≤ a.dlmeSize.toNat - a.dlmeDataOff.toNat

theorem sum_lt {x y : UInt64} (h : x ≤ x + y) : x.toNat + y.toNat < 2 ^ 64 := by
  have hx := x.toNat_lt
  have hy := y.toNat_lt
  rw [UInt64.le_iff_toNat_le, UInt64.toNat_add] at h
  omega

theorem placed_of_checkRegions {P : Platform} {a : DlArgs} (h : drtmDlCheckRegions P a = true) :
    Placed P a := by
  simp only [drtmDlCheckRegions, Bool.and_eq_true, decide_eq_true_eq, beq_iff_eq, Bool.not_eq_true',
    Bool.and_eq_false_iff, decide_eq_false_iff_not] at h
  obtain ⟨⟨⟨⟨⟨⟨⟨⟨⟨himgOff, hdataOff⟩, hpage⟩, ⟨⟨⟨hdlme, himg⟩, himgEnd⟩, hdata⟩, hdataEnd⟩, hapart⟩,
    himgPage⟩, hep, hepEnd⟩, -⟩, hdataPage⟩, hroom⟩ := h
  have hdlmeSum := sum_lt (UInt64.le_of_lt hdlme)
  have himgSum := sum_lt himg
  have himgEndSum := sum_lt (UInt64.le_of_lt himgEnd)
  have hdataSum := sum_lt hdata
  have hepSum := sum_lt hep
  have himgNat : (a.dlmePaddr + a.dlmeImgOff).toNat = a.dlmePaddr.toNat + a.dlmeImgOff.toNat := by
    rw [UInt64.toNat_add, Nat.mod_eq_of_lt himgSum]
  have hdataNat : (a.dlmePaddr + a.dlmeDataOff).toNat =
      a.dlmePaddr.toNat + a.dlmeDataOff.toNat := by
    rw [UInt64.toNat_add, Nat.mod_eq_of_lt hdataSum]
  simp only [DRTM_PAGE_SIZE, ← UInt64.toNat_inj, UInt64.lt_iff_toNat_lt, UInt64.toNat_mod,
    UInt64.toNat_sub, UInt64.toNat_add _ a.dlmeSize, UInt64.toNat_add _ a.dlmeImgSize,
    UInt64.toNat_add _ a.dlmeImgEpOff, Nat.mod_eq_of_lt hdlmeSum, himgNat, hdataNat] at *
  have h4096 : UInt64.toNat 4096 = 4096 := rfl
  have h0 : UInt64.toNat 0 = 0 := rfl
  rw [h4096, h0] at hpage himgPage hdataPage
  exact ⟨hdlmeSum, by omega, by omega, hdataOff, by omega, hpage, himgPage, hdataPage, by omega⟩

/-! ## The whole check -/

variable {D : Type} {P : Platform} {e : Env D} {x1 : UInt64} {a : DlArgs}

theorem checkArgs_ok (h : drtmDlCheckArgs P e x1 = .ok a) :
    a = e.args ∧ drtmDlCheckFeaturesSanity P a.features = 0 ∧ drtmDlCheckRegions P a = true := by
  unfold drtmDlCheckArgs at h
  simp only [ok_bind_iff, check_ok_iff, beq_iff_eq] at h
  obtain ⟨-, -, -, -, -, -, -, -, -, -, -, hfeatures, -, hregions, -, -, -, -, -, -, -, -, ha⟩ := h
  cases ha
  exact ⟨rfl, hfeatures, hregions⟩

theorem accepted_placed (h : drtmDlCheckArgs P e x1 = .ok a) : Placed P a :=
  placed_of_checkRegions (checkArgs_ok h).2.2

theorem accepted_placed_page :
    drtmDlCheckArgs samplePlatform (sampleEnv 4096 0) 0x1000 = .ok (sampleArgs 4096) ∧
      Placed samplePlatform (sampleArgs 4096) := by
  have h : drtmDlCheckArgs samplePlatform (sampleEnv 4096 0) 0x1000 = .ok (sampleArgs 4096) := rfl
  exact ⟨h, accepted_placed h⟩

/-! ## The size that the caller is told -/

/-- `page_align(value, UP)` -/
def pageAlignUp (value : UInt64) : UInt64 :=
  if value &&& 0xFFF ≠ 0 then (value &&& ~~~0xFFF) + 4096 else value

/-- The number of pages in `minimum_memory_requirement`, as `drtm_setup()` has set it. -/
def minDlmeDataPages (P : Platform) : UInt64 :=
  (pageAlignUp P.dlmeDataMinSize / 4096) &&& 0xFFFFFFFF

def tightPlatform : Platform := { samplePlatform with dlmeDataMinSize := 70000 }

def tightArgs : DlArgs := { sampleArgs 4096 with dlmeSize := 74096 }

theorem accepted_below_reported :
    ∃ e : Env (List UInt8), drtmDlCheckArgs tightPlatform e 0x1000 = .ok tightArgs ∧
      tightArgs.dlmeSize.toNat - tightArgs.dlmeDataOff.toNat <
        (minDlmeDataPages tightPlatform).toNat * 4096 := by
  exact ⟨{ sampleEnv 4096 0 with args := tightArgs }, by decide +kernel, by decide +kernel⟩

end TrustedFirmware.Drtm

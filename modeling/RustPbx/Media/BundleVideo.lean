import Mathlib.Data.List.Forall2
import Mathlib.Data.Option.Basic
import RustPbx.Lib.Effect

/-!
Payload types of video on a bundled transport.

The receiver tells the media apart by their payload types, so video is moved away from the types
that are taken. Each type is reserved as soon as it is given, a primary one before its RTX type.
-/

namespace RustPbx.Media

open List

structure VideoCapability where
  payloadType : UInt8
  rtxPayloadType : Option UInt8

def VideoCapability.types (cap : VideoCapability) : List UInt8 :=
  cap.payloadType :: cap.rtxPayloadType.toList

def dynamicTypes : List UInt8 :=
  (range 32).map fun i => .ofNat (96 + i)

/-- A type that is not used: the same one if possible. -/
def seat (used : List UInt8) (payloadType : UInt8) : Except String UInt8 :=
  if payloadType ∈ used then
    (dynamicTypes.find? (· ∉ used)).elim (.error "no free dynamic video payload type") .ok
  else .ok payloadType

def remapBundleVideoPayloadTypes :
    List VideoCapability → List UInt8 → Except String (List VideoCapability)
  | [], _ => .ok []
  | cap :: caps, used => do
    let payloadType ← seat used cap.payloadType
    match cap.rtxPayloadType with
    | none =>
      let caps ← remapBundleVideoPayloadTypes caps (payloadType :: used)
      return ⟨payloadType, none⟩ :: caps
    | some rtx =>
      let rtx ← seat (payloadType :: used) rtx
      let caps ← remapBundleVideoPayloadTypes caps (rtx :: payloadType :: used)
      return ⟨payloadType, some rtx⟩ :: caps

/-- A type is kept, or is a dynamic one. -/
def Moved (pt pt' : UInt8) : Prop :=
  pt' = pt ∨ 96 ≤ pt' ∧ pt' ≤ 127

theorem seat_spec (h : seat used pt = .ok pt') : pt' ∉ used ∧ Moved pt pt' := by
  unfold seat at h
  split_ifs at h with hused
  · cases hfind : dynamicTypes.find? (· ∉ used) with
    | none =>
      rw [hfind] at h
      cases h
    | some found =>
      rw [hfind] at h
      cases h
      have hrange : ∀ pt ∈ dynamicTypes, 96 ≤ pt ∧ pt ≤ 127 := by decide +kernel
      have hmem := mem_of_find?_eq_some hfind
      exact ⟨by simpa using find?_some hfind, .inr (hrange _ hmem)⟩
  · cases h
    exact ⟨hused, .inl rfl⟩

/-- The types are distinct and not used. -/
def Free (used types : List UInt8) : Prop :=
  types.Nodup ∧ ∀ pt ∈ types, pt ∉ used

theorem free_cons : Free used (pt :: types) ↔ pt ∉ used ∧ Free (pt :: used) types := by
  rw [Free, Free, nodup_cons, forall_mem_cons]
  simp only [mem_cons, not_or]
  constructor
  · rintro ⟨⟨hnot, hnodup⟩, hpt, hfree⟩
    exact ⟨hpt, hnodup, fun q hq => ⟨fun heq => hnot (heq ▸ hq), hfree q hq⟩⟩
  · rintro ⟨hpt, hnodup, hfree⟩
    exact ⟨⟨fun hmem => (hfree pt hmem).1 rfl, hnodup⟩, hpt, fun q hq => (hfree q hq).2⟩

def VideoCapability.Moved (cap cap' : VideoCapability) : Prop :=
  Media.Moved cap.payloadType cap'.payloadType ∧
    Option.Rel Media.Moved cap.rtxPayloadType cap'.rtxPayloadType

theorem remap_free (h : remapBundleVideoPayloadTypes caps used = .ok caps') :
    Free used (caps'.flatMap (·.types)) ∧ Forall₂ VideoCapability.Moved caps caps' := by
  induction caps generalizing used caps' with
  | nil =>
    cases h
    exact ⟨⟨nodup_nil, nofun⟩, .nil⟩
  | cons cap caps ih =>
    obtain ⟨pt, rtx⟩ := cap
    obtain ⟨pt', hpt, h⟩ := Eff.ok_of_bind h
    obtain ⟨hfresh, hmoved⟩ := seat_spec hpt
    cases rtx with
    | none =>
      obtain ⟨caps', hcaps, ⟨⟩⟩ := Eff.ok_of_bind h
      obtain ⟨hfree, hall⟩ := ih hcaps
      exact ⟨free_cons.mpr ⟨hfresh, hfree⟩, .cons ⟨hmoved, .none⟩ hall⟩
    | some rtx =>
      obtain ⟨rtx', hrtx, h⟩ := Eff.ok_of_bind h
      obtain ⟨hfresh', hmoved'⟩ := seat_spec hrtx
      obtain ⟨caps', hcaps, ⟨⟩⟩ := Eff.ok_of_bind h
      obtain ⟨hfree, hall⟩ := ih hcaps
      exact ⟨free_cons.mpr ⟨hfresh, free_cons.mpr ⟨hfresh', hfree⟩⟩,
        .cons ⟨hmoved, .some hmoved'⟩ hall⟩

theorem remap_of_free (h : Free used (caps.flatMap VideoCapability.types)) :
    remapBundleVideoPayloadTypes caps used = .ok caps := by
  induction caps generalizing used with
  | nil => rfl
  | cons cap caps ih =>
    obtain ⟨pt, rtx⟩ := cap
    obtain ⟨hpt, h⟩ := free_cons.mp h
    rw [remapBundleVideoPayloadTypes, seat, if_neg hpt]
    cases rtx with
    | none => exact congrArg (· >>= fun caps => pure (_ :: caps)) (ih h)
    | some rtx =>
      obtain ⟨hrtx, h⟩ := free_cons.mp h
      dsimp only [bind, Except.bind]
      rw [seat, if_neg hrtx]
      exact congrArg (· >>= fun caps => pure (_ :: caps)) (ih h)

/-- **Video is moved out of the way**, and only if it has to be. -/
theorem remap_spec (caps : List VideoCapability) (occupied : List UInt8) :
    (∀ caps', remapBundleVideoPayloadTypes caps occupied = .ok caps' →
      Free occupied (caps'.flatMap (·.types)) ∧ Forall₂ VideoCapability.Moved caps caps') ∧
      (Free occupied (caps.flatMap (·.types)) →
        remapBundleVideoPayloadTypes caps occupied = .ok caps) :=
  ⟨fun _ => remap_free, remap_of_free⟩

end RustPbx.Media

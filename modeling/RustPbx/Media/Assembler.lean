import RustPbx.Lib.Bytes

/-!
The frames of a recorded video stream.

NAL units are collected until one has the marker. Those of another timestamp are dropped then.
-/

namespace RustPbx.Media

structure VideoFrame where
  rtpTimestamp : UInt32
  isKeyframe : Bool
  data : List UInt8
  deriving DecidableEq

structure H264FrameAssembler where
  pending : List UInt8 := []
  currentTs : Option UInt32 := none
  pendingKeyframe : Bool := false
  sps : Option (List UInt8) := none
  pps : Option (List UInt8) := none
  bytesDropped : UInt64 := 0
  deriving DecidableEq

def nalType (nal : List UInt8) : UInt8 :=
  (nal.head?.map (· &&& 0x1F)).getD 0

inductive AssemblerCall where
  | pushNal (nal : List UInt8) (rtpTimestamp : UInt32) (marker : Bool)
  | flush

namespace H264FrameAssembler

variable (a : H264FrameAssembler)

def close : H264FrameAssembler :=
  { a with pending := [], pendingKeyframe := false, currentTs := none }

def turnTo (rtpTimestamp : UInt32) : H264FrameAssembler :=
  if a.currentTs.any (· ≠ rtpTimestamp) then
    { a.close with bytesDropped := a.bytesDropped + .ofNat a.pending.length }
  else a

def append (nal : List UInt8) (rtpTimestamp : UInt32) : H264FrameAssembler :=
  { a with
    currentTs := some rtpTimestamp
    pending := a.pending ++ (Bytes.put 4 nal.length ++ nal)
    pendingKeyframe := a.pendingKeyframe || nalType nal = 5 }

def pushNal (nal : List UInt8) (rtpTimestamp : UInt32) (marker : Bool) :
    Option VideoFrame × H264FrameAssembler :=
  if nal = [] then (none, a)
  else if nalType nal = 7 then (none, { a with sps := some nal })
  else if nalType nal = 8 then (none, { a with pps := some nal })
  else
    let a := (a.turnTo rtpTimestamp).append nal rtpTimestamp
    if marker then
      (if a.pending = [] then none else some ⟨rtpTimestamp, a.pendingKeyframe, a.pending⟩, a.close)
    else (none, a)

def flush : Option VideoFrame × H264FrameAssembler :=
  (if a.pending = [] then none else some ⟨a.currentTs.getD 0, a.pendingKeyframe, a.pending⟩,
    a.close)

def step : AssemblerCall → Option VideoFrame × H264FrameAssembler
  | .pushNal nal rtpTimestamp marker => a.pushNal nal rtpTimestamp marker
  | .flush => a.flush

def run : List AssemblerCall → H264FrameAssembler → List VideoFrame × H264FrameAssembler
  | [], a => ([], a)
  | call :: calls, a =>
    let r := run calls (a.step call).2
    ((a.step call).1.toList ++ r.1, r.2)

end H264FrameAssembler

/-- NAL units of one timestamp. -/
structure AccessUnit where
  rtpTimestamp : UInt32
  nals : List (List UInt8)

namespace AccessUnit

def frame (u : AccessUnit) : VideoFrame where
  rtpTimestamp := u.rtpTimestamp
  isKeyframe := u.nals.any (nalType · = 5)
  data := u.nals.flatMap fun nal => Bytes.put 4 nal.length ++ nal

def add (nal : List UInt8) (rtpTimestamp : UInt32) (opened : Option AccessUnit) : AccessUnit :=
  ⟨rtpTimestamp, ((opened.filter (·.rtpTimestamp = rtpTimestamp)).elim [] nals) ++ [nal]⟩

end AccessUnit

/-- NAL units other than parameter sets. -/
abbrev Retained (nal : List UInt8) : Prop :=
  nal ≠ [] ∧ nalType nal ≠ 7 ∧ nalType nal ≠ 8

/-- The unit that a call completes, and the one that is open then. -/
def accessUnit (opened : Option AccessUnit) : AssemblerCall → Option AccessUnit × Option AccessUnit
  | .flush => (opened, none)
  | .pushNal nal rtpTimestamp marker =>
    if Retained nal then
      let u := AccessUnit.add nal rtpTimestamp opened
      if marker then (some u, none) else (none, some u)
    else (none, opened)

def accessUnits : List AssemblerCall → Option AccessUnit → List AccessUnit
  | [], _ => []
  | call :: calls, opened =>
    let r := accessUnit opened call
    r.1.toList ++ accessUnits calls r.2

/-- The bytes of a NAL unit that is retained, with its length. -/
def AssemblerCall.size : AssemblerCall → Nat
  | .pushNal nal _ _ => if Retained nal then nal.length + 4 else 0
  | .flush => 0

/-! ## The frames and their bytes -/

namespace H264FrameAssembler

/-- The bytes that are dropped or pending. -/
def kept (a : H264FrameAssembler) : UInt64 :=
  .ofNat a.pending.length + a.bytesDropped

def Holds (a : H264FrameAssembler) : Option AccessUnit → Prop
  | none => a.currentTs = none ∧ a.pendingKeyframe = false ∧ a.pending = []
  | some u => a.currentTs = some u.rtpTimestamp ∧ a.pendingKeyframe = u.frame.isKeyframe ∧
    a.pending = u.frame.data ∧ a.pending ≠ []

variable {a : H264FrameAssembler}

theorem Holds.append (h : a.Holds o) :
    ((a.turnTo ts).append nal ts).Holds (some (.add nal ts o)) := by
  cases o with
  | none =>
    obtain ⟨hts, hkey, hpending⟩ := h
    simp [Holds, turnTo, H264FrameAssembler.append, AccessUnit.add, AccessUnit.frame, hts, hkey,
      hpending, Bytes.put]
  | some u =>
    obtain ⟨hts, hkey, hpending, -⟩ := h
    by_cases hsame : u.rtpTimestamp = ts <;>
      simp [Holds, turnTo, H264FrameAssembler.append, close, AccessUnit.add, AccessUnit.frame,
        hsame, hts, hkey, hpending, Option.filter, Bytes.put]

theorem kept_append : ((a.turnTo ts).append nal ts).kept = a.kept + .ofNat (nal.length + 4) := by
  dsimp only [kept, H264FrameAssembler.append]
  unfold turnTo
  split <;> simp [close] <;> grind

theorem Holds.flush (h : a.Holds o) : a.flush.1 = o.map AccessUnit.frame ∧
    .ofNat (a.flush.1.elim 0 (·.data.length)) + a.flush.2.kept = a.kept := by
  cases o with
  | none =>
    obtain ⟨-, -, hpending⟩ := h
    simp [H264FrameAssembler.flush, kept, close, hpending]
  | some u =>
    obtain ⟨hts, hkey, hpending, hne⟩ := h
    rw [H264FrameAssembler.flush, if_neg hne, hts, hkey, hpending]
    exact ⟨rfl, by simp [kept, close, hpending]⟩

theorem step_spec (h : a.Holds o) (call : AssemblerCall) :
    (a.step call).1 = (accessUnit o call).1.map AccessUnit.frame ∧
      (a.step call).2.Holds (accessUnit o call).2 ∧
      .ofNat ((a.step call).1.elim 0 (·.data.length)) + (a.step call).2.kept =
        a.kept + .ofNat call.size := by
  cases call with
  | flush => exact ⟨h.flush.1, ⟨rfl, rfl, rfl⟩, h.flush.2.trans (UInt64.add_zero _).symm⟩
  | pushNal nal ts marker =>
    by_cases hnal : Retained nal
    · have hnext : ((a.turnTo ts).append nal ts).Holds (some (.add nal ts o)) := h.append
      have hpush : a.step (.pushNal nal ts marker) = if marker then
          ((a.turnTo ts).append nal ts).flush else (none, (a.turnTo ts).append nal ts) := by
        rw [step, pushNal, if_neg hnal.1, if_neg hnal.2.1, if_neg hnal.2.2]
        rfl
      rw [hpush, AssemblerCall.size, if_pos hnal, accessUnit, if_pos hnal, ← kept_append]
      cases marker with
      | true => exact ⟨hnext.flush.1, ⟨rfl, rfl, rfl⟩, hnext.flush.2⟩
      | false => exact ⟨rfl, hnext, UInt64.zero_add _⟩
    · -- Only the parameter sets can change.
      obtain ⟨sps, pps, hpush⟩ : ∃ sps pps, a.step (.pushNal nal ts marker) =
          (none, { a with sps, pps }) := by
        unfold step pushNal
        dsimp only
        split
        next => exact ⟨a.sps, a.pps, rfl⟩
        next hempty =>
          split
          next => exact ⟨_, a.pps, rfl⟩
          next hsps =>
            split
            next => exact ⟨a.sps, _, rfl⟩
            next hpps => exact absurd ⟨hempty, hsps, hpps⟩ hnal
      rw [hpush, AssemblerCall.size, if_neg hnal, accessUnit, if_neg hnal]
      refine ⟨rfl, by cases o <;> exact h, ?_⟩
      simp [kept]

theorem run_spec (h : a.Holds o) :
    (run calls a).1 = (accessUnits calls o).map AccessUnit.frame ∧
      .ofNat ((run calls a).1.map (·.data.length)).sum + (run calls a).2.kept =
        a.kept + .ofNat (calls.map AssemblerCall.size).sum := by
  -- What is pending is the open unit `o`, whatever came before.
  induction calls generalizing a o with
  | nil => exact ⟨rfl, by simp [run]⟩
  | cons call calls ih =>
    obtain ⟨hframe, hnext, hbytes⟩ := step_spec h call
    obtain ⟨hframes, hsum⟩ := ih hnext
    refine ⟨by simp [run, accessUnits, hframe, hframes, Option.toList_map], ?_⟩
    cases hout : (a.step call).1 <;> simp [run] at hbytes hsum ⊢ <;> grind

/-- **The frames of a stream** are those of its access units, and the bytes that are emitted,
dropped and pending add up. -/
theorem frames_assembled (calls : List AssemblerCall) :
    (run calls {}).1 = (accessUnits calls none).map AccessUnit.frame ∧
      .ofNat ((run calls {}).1.map (·.data.length)).sum + (run calls {}).2.kept =
        UInt64.ofNat (calls.map AssemblerCall.size).sum := by
  obtain ⟨hframes, hbytes⟩ := run_spec (a := {}) (o := none) ⟨rfl, rfl, rfl⟩
  exact ⟨hframes, by simpa [kept] using hbytes⟩

/-- A parameter set is neither emitted nor dropped nor pending. -/
theorem parameter_set_kept :
    run [.pushNal [0x67, 1] 0 false] {} = ([], { sps := some [0x67, 1] }) := by
  decide

end H264FrameAssembler

end RustPbx.Media

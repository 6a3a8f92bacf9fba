import RustPbx.Proxy.Acl
import RustPbx.Proxy.Auth

/-!
Transactions through the modules, and what the access control module counts of them.

Each transaction goes through the modules one after the other, and at the end through all of them
again, with those of others in between. It `holds` a place in the count of its address from the
moment it is admitted until it is through the access control module at its end, or has ended in
another way.
-/

namespace RustPbx.Proxy

open Acl Option

/-- The modules of a server: some before the access control module and some after it. -/
structure ModuleChain where
  cfg : AclConfig
  before : Nat
  after : Nat
  /-- The lower case of a text. -/
  toLowercase : String → String := Str.lower

def ModuleChain.length (chain : ModuleChain) : Nat :=
  chain.before + 1 + chain.after

inductive TransactionPhase where
  | begin (module : Nat)
  | checkDos
  /-- In the access control module, before the address is looked at. -/
  | checkIp
  | finish (module : Nat)
  | ended

structure ProxyTransaction where
  request : AclRequest
  phase : TransactionPhase
  /-- It is admitted and has not been through the access control module at its end. -/
  holds : Bool

structure ProxyServer where
  dosData : DosData
  transactions : Table Nat ProxyTransaction

inductive TransactionAction where
  | arrive (tx : Nat) (request : AclRequest)
  | moduleReturns (tx : Nat) (result : Except String ProxyAction)
  | aclBegins (tx : Nat)
  | aclChecksDos (tx : Nat) (now : Int)
  | aclChecksIp (tx : Nat) (rules : List String) (trunk : Option TrunkContext)
  /-- The next module is through with the end of the transaction. -/
  | moduleEnds (tx : Nat)
  | cancel (tx : Nat)

namespace ModuleChain

variable (chain : ModuleChain)

def next (module : Nat) : ProxyAction → TransactionPhase
  | .continue => if module + 1 < chain.length then .begin (module + 1) else .finish 0
  | .abort => .finish 0

def nextAcl (denial : Option Denial) : TransactionPhase :=
  chain.next chain.before (if denial.isSome then .abort else .continue)

end ModuleChain

namespace ProxyServer

variable (chain : ModuleChain)

def set (s : ProxyServer) (tx : Nat) (t : ProxyTransaction) : ProxyServer :=
  { s with transactions := s.transactions.insert tx t }

def advance (s : ProxyServer) (tx : Nat) (t : ProxyTransaction) :
    TransactionPhase → TransactionAction → Option ProxyServer
  | .begin module, .moduleReturns _ result =>
    if module = chain.before then none
    else
      match result with
      | .ok action => some (s.set tx { t with phase := chain.next module action })
      -- an error is answered, and nothing else is run
      | .error _ => some (s.set tx { t with phase := .ended, holds := false })
  | .begin module, .aclBegins _ =>
    if module = chain.before then
      match checkRequest chain.toLowercase chain.cfg t.request with
      | some _ => some (s.set tx { t with phase := .finish 0 })
      | none => some (s.set tx { t with phase := .checkDos })
    else none
  | .checkDos, .aclChecksDos _ now =>
    let (denial, dosData) := checkDos chain.cfg now s.dosData t.request
    let s := { s with dosData }
    match denial with
    | some _ => some (s.set tx { t with phase := .finish 0 })
    | none =>
      let holds := chain.cfg.dosEnabled && t.request.sourceIp.isSome
      some (s.set tx { t with phase := .checkIp, holds })
  | .checkIp, .aclChecksIp _ rules trunk =>
    match checkIp rules trunk t.request with
    | .ok denial => some (s.set tx { t with phase := chain.nextAcl denial })
    | .error _ => some (s.set tx { t with phase := .ended, holds := false })
  | .finish module, .moduleEnds _ =>
    let phase := if module + 1 < chain.length then .finish (module + 1) else .ended
    if module = chain.before then
      let s := { s with dosData := onTransactionEnd chain.cfg s.dosData t.request }
      some (s.set tx { t with phase, holds := false })
    else some (s.set tx { t with phase })
  -- the future is dropped where it waits, in a module
  | .begin _, .cancel _ | .finish _, .cancel _ =>
    some (s.set tx { t with phase := .ended, holds := false })
  | _, _ => none

def actor : TransactionAction → Nat
  | .arrive tx _ | .moduleReturns tx _ | .aclBegins tx | .aclChecksDos tx _
  | .aclChecksIp tx _ _ | .moduleEnds tx | .cancel tx => tx

def step (s : ProxyServer) (action : TransactionAction) : Option ProxyServer :=
  match s.transactions.lookup (actor action) with
  | some t => s.advance chain (actor action) t t.phase action
  | none =>
    match action with
    | .arrive tx request => some (s.set tx ⟨request, .begin 0, false⟩)
    | _ => none

inductive Step (s : ProxyServer) : TransactionAction → ProxyServer → Prop where
  | arrives {tx request} (h : s.transactions.lookup tx = none) :
    Step s (.arrive tx request) (s.set tx ⟨request, .begin 0, false⟩)
  | returns {tx t module action} (h : s.transactions.lookup tx = some t)
      (hphase : t.phase = .begin module) :
    Step s (.moduleReturns tx (.ok action)) (s.set tx { t with phase := chain.next module action })
  | fails {tx t module e} (h : s.transactions.lookup tx = some t)
      (hphase : t.phase = .begin module) :
    Step s (.moduleReturns tx (.error e)) (s.set tx { t with phase := .ended, holds := false })
  | denied {tx t} (h : s.transactions.lookup tx = some t) (hphase : t.phase = .begin chain.before) :
    Step s (.aclBegins tx) (s.set tx { t with phase := .finish 0 })
  | passed {tx t} (h : s.transactions.lookup tx = some t) (hphase : t.phase = .begin chain.before) :
    Step s (.aclBegins tx) (s.set tx { t with phase := .checkDos })
  | dosDenied {tx t now denial dosData} (h : s.transactions.lookup tx = some t)
      (hphase : t.phase = .checkDos)
      (hcheck : checkDos chain.cfg now s.dosData t.request = (some denial, dosData)) :
    Step s (.aclChecksDos tx now) ({ s with dosData }.set tx { t with phase := .finish 0 })
  | dosPassed {tx t now dosData} (h : s.transactions.lookup tx = some t)
      (hphase : t.phase = .checkDos)
      (hcheck : checkDos chain.cfg now s.dosData t.request = (none, dosData)) :
    Step s (.aclChecksDos tx now) ({ s with dosData }.set tx
      { t with phase := .checkIp, holds := chain.cfg.dosEnabled && t.request.sourceIp.isSome })
  | ipChecked {tx t rules trunk denial} (h : s.transactions.lookup tx = some t)
      (hphase : t.phase = .checkIp) :
    Step s (.aclChecksIp tx rules trunk) (s.set tx { t with phase := chain.nextAcl denial })
  | ipMissing {tx t rules trunk} (h : s.transactions.lookup tx = some t)
      (hphase : t.phase = .checkIp) (hip : t.request.sourceIp = none) :
    Step s (.aclChecksIp tx rules trunk) (s.set tx { t with phase := .ended, holds := false })
  | moduleEnds {tx t module} (h : s.transactions.lookup tx = some t)
      (hphase : t.phase = .finish module) (hother : module ≠ chain.before) :
    Step s (.moduleEnds tx) (s.set tx
      { t with phase := if module + 1 < chain.length then .finish (module + 1) else .ended })
  | aclEnds {tx t} (h : s.transactions.lookup tx = some t)
      (hphase : t.phase = .finish chain.before) :
    Step s (.moduleEnds tx)
      ({ s with dosData := onTransactionEnd chain.cfg s.dosData t.request }.set tx
        { t with
          phase := if chain.before + 1 < chain.length then .finish (chain.before + 1) else .ended
          holds := false })
  | cancelled {tx t} (h : s.transactions.lookup tx = some t)
      (hphase : (∃ module, t.phase = .begin module) ∨ ∃ module, t.phase = .finish module) :
    Step s (.cancel tx) (s.set tx { t with phase := .ended, holds := false })

variable {chain} {s : ProxyServer}

theorem sourceIp_of_checkIp_error (h : checkIp rules trunk request = .error e) :
    request.sourceIp = none := by
  unfold checkIp at h
  split at h
  next hip => exact hip
  · split at h
    · cases h
    · cases h

variable {tx : Nat}

theorem advance_cases (ht : s.transactions.lookup (actor action) = some t)
    (h : s.advance chain (actor action) t t.phase action = some s') : Step chain s action s' := by
  unfold advance at h
  split at h
  next module tx result hphase =>
    split at h
    · cases h
    · split at h
      · cases h
        exact .returns ht hphase
      · cases h
        exact .fails ht hphase
  next module tx hphase =>
    split at h
    next hbefore =>
      rw [hbefore] at hphase
      split at h
      · cases h
        exact .denied ht hphase
      · cases h
        exact .passed ht hphase
    · cases h
  next tx now hphase =>
    cases hcheck : checkDos chain.cfg now s.dosData t.request with
    | mk denial dosData =>
      rw [hcheck] at h
      cases denial with
      | some denial =>
        cases h
        exact .dosDenied ht hphase hcheck
      | none =>
        cases h
        exact .dosPassed ht hphase hcheck
  next tx rules trunk hphase =>
    split at h
    · cases h
      exact .ipChecked ht hphase
    next e he =>
      cases h
      exact .ipMissing ht hphase (sourceIp_of_checkIp_error he)
  next module tx hphase =>
    dsimp only at h
    split at h
    next hbefore =>
      rw [hbefore] at hphase h
      cases h
      exact .aclEnds ht hphase
    next hother =>
      cases h
      exact .moduleEnds ht hphase hother
  next module tx hphase =>
    cases h
    exact .cancelled ht (.inl ⟨module, hphase⟩)
  next module tx hphase =>
    cases h
    exact .cancelled ht (.inr ⟨module, hphase⟩)
  · cases h

theorem step_cases (h : s.step chain action = some s') : Step chain s action s' := by
  unfold step at h
  split at h
  next t ht => exact advance_cases ht h
  next hnone =>
    cases action with
    | arrive tx request =>
      cases h
      exact .arrives hnone
    | _ => cases h

/-! ## Places in the count -/

def place (ip : IpAddr) (t : ProxyTransaction) : Nat :=
  if t.holds ∧ t.request.sourceIp = some ip then 1 else 0

def inProgress (s : ProxyServer) (ip : IpAddr) : Nat :=
  s.transactions.total fun _ => place ip

theorem place_of_not_holds (h : t.holds = false) : place ip t = 0 := by
  rw [place, h]
  exact if_neg nofun

theorem inProgress_set (h : s.transactions.lookup tx = some t) (t' : ProxyTransaction)
    (ip : IpAddr) :
    (s.set tx t').inProgress ip + place ip t = s.inProgress ip + place ip t' := by
  have htotal := Table.total_insert (fun _ => place ip) tx t' s.transactions
  rw [Table.rowAt, h] at htotal
  exact htotal

theorem inProgress_set_new (h : s.transactions.lookup tx = none) :
    (s.set tx t').inProgress ip = s.inProgress ip + place ip t' := by
  have htotal := Table.total_insert (fun _ => place ip) tx t' s.transactions
  rw [Table.rowAt, h] at htotal
  exact htotal

theorem inProgress_set_same (h : s.transactions.lookup tx = some t) (hholds : t'.holds = t.holds)
    (hrequest : t'.request = t.request) :
    (s.set tx t').inProgress ip = s.inProgress ip := by
  have hset := inProgress_set h t' ip
  have hplace : place ip t' = place ip t := by
    rw [place, place, hholds, hrequest]
  omega

/-- A place is held from the check on, until the end is through the module. -/
structure Wf (chain : ModuleChain) (t : ProxyTransaction) : Prop where
  counted : t.holds = true → chain.cfg.dosEnabled = true ∧ t.request.sourceIp.isSome
  checkDos : t.phase = .checkDos → t.holds = false
  begin : ∀ module, t.phase = .begin module → t.holds = true → chain.before < module
  finish : ∀ module, t.phase = .finish module → t.holds = true → module ≤ chain.before
  ended : t.phase = .ended → t.holds = false

theorem wf_of_not_holds (h : t.holds = false) : Wf chain t where
  counted hholds := absurd hholds (by simp [h])
  checkDos _ := h
  begin _ _ hholds := absurd hholds (by simp [h])
  finish _ _ hholds := absurd hholds (by simp [h])
  ended _ := h

def AllWf (chain : ModuleChain) (s : ProxyServer) : Prop :=
  ∀ tx t, s.transactions.lookup tx = some t → Wf chain t

theorem AllWf.set (h : AllWf chain s) (ht : Wf chain t) : AllWf chain (s.set tx t) := by
  intro tx' t' ht'
  change (s.transactions.insert tx t).lookup tx' = some t' at ht'
  rw [Table.lookup_insert_eq] at ht'
  split at ht'
  · cases ht'
    exact ht
  · exact h tx' t' ht'

theorem Wf.toFinish (h : Wf chain t) : Wf chain { t with phase := .finish 0 } where
  counted := h.counted
  checkDos := nofun
  begin _ := nofun
  finish
  | _, rfl, _ => Nat.zero_le _
  ended := nofun

theorem Wf.next (h : Wf chain t) (hmodule : t.holds = true → chain.before ≤ module)
    (action : ProxyAction) :
    Wf chain { t with phase := chain.next module action } := by
  cases action with
  | abort => exact h.toFinish
  | «continue» =>
    unfold ModuleChain.next
    dsimp only
    split
    · exact {
        counted := h.counted
        checkDos := nofun
        begin := by
          rintro _ ⟨⟩ hholds
          exact Nat.lt_succ_of_le (hmodule hholds)
        finish := nofun
        ended := nofun }
    · exact h.toFinish

theorem Wf.nextEnd (h : Wf chain t) (hphase : t.phase = .finish module)
    (hother : module ≠ chain.before) : Wf chain { t with
      phase := if module + 1 < chain.length then .finish (module + 1) else .ended } := by
  have hbefore : t.holds = true → module + 1 ≤ chain.before := by
    intro hholds
    exact Nat.lt_of_le_of_ne (h.finish module hphase hholds) hother
  split
  · exact {
      counted := h.counted
      checkDos := nofun
      begin := nofun
      finish := by
        rintro _ ⟨⟩ hholds
        exact hbefore hholds
      ended := nofun }
  next hlast =>
    apply wf_of_not_holds
    cases hholds : t.holds with
    | false => rfl
    | true =>
      have hmodule := hbefore hholds
      unfold ModuleChain.length at hlast
      omega

theorem Step.allWf (hstep : Step chain s action s') (h : AllWf chain s) : AllWf chain s' := by
  cases hstep with
  | arrives | fails | ipMissing | cancelled => exact h.set (wf_of_not_holds rfl)
  | returns ht hphase =>
    have hwf := h _ _ ht
    exact h.set (hwf.next (fun hholds => (hwf.begin _ hphase hholds).le) _)
  | denied ht _ => exact h.set (h _ _ ht).toFinish
  | passed ht hphase =>
    have hwf := h _ _ ht
    apply h.set
    apply wf_of_not_holds
    cases hholds : ProxyTransaction.holds _ with
    | false => rfl
    | true => exact absurd (hwf.begin _ hphase hholds) (Nat.lt_irrefl _)
  | dosDenied ht hphase _ =>
    have hwf := h _ _ ht
    exact AllWf.set h (wf_of_not_holds (hwf.checkDos hphase))
  | @dosPassed tx t now dosData ht hphase _ =>
    refine AllWf.set h ?_
    exact {
      counted := fun hholds => by simpa using hholds
      checkDos := nofun
      begin := nofun
      finish := nofun
      ended := nofun }
  | ipChecked ht hphase =>
    have hwf := h _ _ ht
    exact h.set (hwf.next (fun _ => Nat.le_refl _) _)
  | moduleEnds ht hphase hother => exact h.set ((h _ _ ht).nextEnd hphase hother)
  | aclEnds ht _ => exact AllWf.set h (wf_of_not_holds rfl)

/-! ## The count -/

/-- What is counted for each address are its admitted transactions in progress. -/
def Counted (s : ProxyServer) : Prop :=
  ∀ ip, s.dosData.concurrent ip = s.inProgress ip

/-- No admitted transaction fails or is cancelled; and none of an address is in progress when one
that is not admitted is through the module at its end, or a check finds that a block is over. -/
def Orderly (chain : ModuleChain) (s : ProxyServer) (action : TransactionAction) : Prop :=
  ∀ t, s.transactions.lookup (actor action) = some t →
    match action with
    | .moduleReturns _ (.error _) | .cancel _ => t.holds = false
    | .aclChecksDos _ now => chain.cfg.dosEnabled = true → ∀ ip, t.request.sourceIp = some ip →
      s.dosData.BlockOver now ip → s.inProgress ip = 0
    | .moduleEnds _ => t.phase = .finish chain.before → t.holds = false →
      chain.cfg.dosEnabled = true → ∀ ip, t.request.sourceIp = some ip → s.inProgress ip = 0
    | _ => True

theorem counted_set_same (hc : s.Counted) (h : s.transactions.lookup tx = some t)
    (hholds : t'.holds = t.holds) (hrequest : t'.request = t.request) : (s.set tx t').Counted := by
  intro ip
  rw [inProgress_set_same h hholds hrequest]
  exact hc ip

theorem counted_drop_iff (hc : s.Counted) (h : s.transactions.lookup tx = some t)
    (hwf : Wf chain t) :
    (s.set tx { t with phase := .ended, holds := false }).Counted ↔ t.holds = false := by
  constructor
  · intro hcounted
    cases hholds : t.holds with
    | false => rfl
    | true =>
      obtain ⟨ip, hip⟩ := isSome_iff_exists.mp (hwf.counted hholds).2
      have hset := inProgress_set h { t with phase := .ended, holds := false } ip
      rw [place_of_not_holds (t := { t with phase := .ended, holds := false }) rfl, place,
        if_pos ⟨hholds, hip⟩, ← hcounted ip, ← hc ip] at hset
      change s.dosData.concurrent ip + 1 = s.dosData.concurrent ip at hset
      omega
  · intro hholds
    exact counted_set_same hc h hholds.symm rfl

theorem counted_check_iff {dosData : DosData} (hc : s.Counted)
    (h : s.transactions.lookup tx = some t) (hholds : t.holds = false)
    (hcount : ∀ ip', dosData.concurrent ip' =
      if ip' = ip then base + n else s.dosData.concurrent ip')
    (hplace : ∀ ip', place ip' t' = if ip' = ip then n else 0) :
    ({ s with dosData }.set tx t').Counted ↔ base = s.inProgress ip := by
  have hprogress : ∀ ip', ({ s with dosData }.set tx t').inProgress ip' =
      s.inProgress ip' + if ip' = ip then n else 0 := by
    intro ip'
    have hset := inProgress_set h t' ip'
    rw [place_of_not_holds hholds, hplace] at hset
    exact hset
  constructor
  · intro hcounted
    have hip := hcounted ip
    rw [hprogress, if_pos rfl] at hip
    change dosData.concurrent ip = _ at hip
    rw [hcount, if_pos rfl] at hip
    omega
  · intro hbase ip'
    rw [hprogress]
    change dosData.concurrent ip' = _
    rw [hcount, hc ip']
    split
    next heq =>
      rw [heq, hbase]
    · rfl

theorem concurrent_onTransactionEnd : (onTransactionEnd cfg data request).concurrent ip =
      if cfg.dosEnabled = true ∧ request.sourceIp = some ip then data.concurrent ip - 1
      else data.concurrent ip := by
  unfold onTransactionEnd
  cases hip : request.sourceIp with
  | none => simp
  | some ip' =>
    split
    next henabled =>
      rw [concurrent_dosRelease, henabled]
      by_cases heq : ip = ip'
      · rw [if_pos heq, if_pos ⟨rfl, congrArg some heq.symm⟩, heq]
      · rw [if_neg heq, if_neg fun h => heq (some.inj h.2).symm]
    next henabled => rw [if_neg fun h => henabled h.1]

theorem counted_end_iff (hc : s.Counted) (h : s.transactions.lookup tx = some t)
    (hwf : Wf chain t) :
    ({ s with dosData := onTransactionEnd chain.cfg s.dosData t.request }.set tx
        { t with phase, holds := false }).Counted ↔ (t.holds = false → chain.cfg.dosEnabled = true →
        ∀ ip, t.request.sourceIp = some ip → s.inProgress ip = 0) := by
  have hset (ip : IpAddr) : (s.set tx { t with phase, holds := false }).inProgress ip +
      place ip t = s.inProgress ip := by
    rw [inProgress_set h]
    rfl
  have hcount : ∀ ip, (onTransactionEnd chain.cfg s.dosData t.request).concurrent ip = _ :=
    fun ip => concurrent_onTransactionEnd
  constructor
  · intro hcounted hholds henabled ip hip
    have hcounted := (hcount ip).symm.trans (hcounted ip)
    have hsame := hset ip
    rw [place_of_not_holds hholds] at hsame
    rw [if_pos ⟨henabled, hip⟩, hc ip] at hcounted
    change s.inProgress ip - 1 =
      (s.set tx { t with phase, holds := false }).inProgress ip at hcounted
    omega
  · intro horderly ip
    refine (hcount ip).trans ?_
    change _ = (s.set tx { t with phase, holds := false }).inProgress ip
    have hset := hset ip
    rw [hc ip]
    by_cases hip : t.request.sourceIp = some ip
    · cases hholds : t.holds with
      | true =>
        rw [place, if_pos ⟨hholds, hip⟩] at hset
        rw [if_pos ⟨(hwf.counted hholds).1, hip⟩]
        omega
      | false =>
        rw [place_of_not_holds hholds] at hset
        split
        · next hcond =>
          have hzero := horderly hholds hcond.1 ip hip
          omega
        · omega
    · rw [place, if_neg fun h => hip h.2] at hset
      rw [if_neg fun h => hip h.2]
      omega

/-- A check starts from what is right exactly if it finds no block that is over, or nobody in
progress. -/
theorem base_iff_orderly (hc : s.Counted) (h : s.transactions.lookup tx = some t)
    (henabled : chain.cfg.dosEnabled = true) (hip : t.request.sourceIp = some ip)
    (hover : s.dosData.BlockOver now ip → base = 0)
    (hnot : ¬ s.dosData.BlockOver now ip → base = s.dosData.concurrent ip) :
    base = s.inProgress ip ↔ Orderly chain s (.aclChecksDos tx now) := by
  constructor
  · intro hbase t' ht' _ ip' hip' hblock
    obtain rfl := some.inj (h.symm.trans ht')
    obtain rfl := some.inj (hip.symm.trans hip')
    exact hbase.symm.trans (hover hblock)
  · intro horderly
    by_cases hblock : s.dosData.BlockOver now ip
    · exact (hover hblock).trans (horderly t h henabled ip hip hblock).symm
    · exact (hnot hblock).trans (hc ip)

/-- **One step** keeps the count right exactly if it is orderly. -/
theorem Step.counted_iff (hstep : Step chain s action s') (hwf : AllWf chain s) (hc : s.Counted) :
    s'.Counted ↔ Orderly chain s action := by
  cases hstep with
  | @arrives tx request hnone =>
    refine iff_of_true (fun ip => ?_) fun t ht => ?_
    · rw [inProgress_set_new hnone]
      exact hc ip
    · rw [show actor (.arrive tx request) = tx from rfl, hnone] at ht
      cases ht
  | returns ht _ | denied ht _ | passed ht _ | ipChecked ht _ =>
    exact iff_of_true (counted_set_same hc ht rfl rfl) fun _ _ => trivial
  | fails ht _ | cancelled ht _ =>
    rw [counted_drop_iff hc ht (hwf _ _ ht)]
    refine ⟨fun hholds t ht' => ?_, fun horderly => horderly _ ht⟩
    obtain rfl := some.inj (ht.symm.trans ht')
    exact hholds
  | ipMissing ht _ hip =>
    refine iff_of_true ((counted_drop_iff hc ht (hwf _ _ ht)).mpr ?_) fun _ _ => trivial
    cases hholds : ProxyTransaction.holds _ with
    | false => rfl
    | true =>
      have hsome := ((hwf _ _ ht).counted hholds).2
      rw [hip] at hsome
      cases hsome
  | @dosDenied tx t now denial dosData ht hphase hcheck =>
    have hholds := (hwf _ _ ht).checkDos hphase
    obtain ⟨-, hnone, -⟩ | ⟨henabled, ip, hip, base, hover, hnot, hresult⟩ :=
      checkDos_cases hcheck
    · cases hnone
    · obtain ⟨-, hcount⟩ | ⟨hnone, -⟩ := hresult
      · refine (counted_check_iff (n := 0) hc ht hholds hcount fun ip' => ?_).trans
          (base_iff_orderly hc ht henabled hip hover hnot)
        exact (place_of_not_holds hholds).trans (ite_self 0).symm
      · cases hnone
  | @dosPassed tx t now dosData ht hphase hcheck =>
    have hholds := (hwf _ _ ht).checkDos hphase
    obtain ⟨hoff, -, rfl⟩ | ⟨henabled, ip, hip, base, hover, hnot, hresult⟩ :=
      checkDos_cases hcheck
    · refine iff_of_true ?_ ?_
      · exact counted_set_same hc ht (hoff.trans hholds.symm) rfl
      · intro t' ht' henabled ip hip
        obtain rfl := some.inj (ht.symm.trans ht')
        rw [henabled, hip] at hoff
        cases hoff
    · obtain ⟨hsome, -⟩ | ⟨-, -, hcount⟩ := hresult
      · cases hsome
      · refine (counted_check_iff hc ht hholds hcount fun ip' => ?_).trans
          (base_iff_orderly hc ht henabled hip hover hnot)
        simp only [place, henabled, hip, isSome_some, Bool.and_self, some.injEq,
          true_and, eq_comm]
  | moduleEnds ht hphase hother =>
    refine iff_of_true (counted_set_same hc ht rfl rfl) fun t' ht' hphase' => ?_
    obtain rfl := some.inj (ht.symm.trans ht')
    rw [hphase] at hphase'
    cases hphase'
    exact absurd rfl hother
  | aclEnds ht hphase =>
    rw [counted_end_iff hc ht (hwf _ _ ht)]
    refine ⟨fun horderly t' ht' _ => ?_, fun horderly => horderly _ ht hphase⟩
    obtain rfl := some.inj (ht.symm.trans ht')
    exact horderly

theorem Step.bounded (hstep : Step chain s action s')
    (h : ∀ ip, s.dosData.concurrent ip ≤ chain.cfg.dosMaxConcurrentPerIp.toNat) (ip : IpAddr) :
    s'.dosData.concurrent ip ≤ chain.cfg.dosMaxConcurrentPerIp.toNat := by
  have hcheck : ∀ {now t denial dosData}, checkDos chain.cfg now s.dosData t = (denial, dosData) →
      dosData.concurrent ip ≤ chain.cfg.dosMaxConcurrentPerIp.toNat := by
    intro now request denial dosData hcheck
    obtain ⟨-, -, rfl⟩ | ⟨-, ip', -, base, hover, hnot, hresult⟩ := checkDos_cases hcheck
    · exact h ip
    · have hbase : base ≤ s.dosData.concurrent ip' := by
        by_cases hblock : s.dosData.BlockOver now ip'
        · exact (hover hblock).le.trans (Nat.zero_le _)
        · exact (hnot hblock).le
      obtain ⟨-, hcount⟩ | ⟨-, hmax, hcount⟩ := hresult
      · rw [hcount]
        split
        · exact hbase.trans (h ip')
        · exact h ip
      · rw [hcount]
        split
        · exact hmax
        · exact h ip
  cases hstep with
  | arrives _ | returns _ _ | fails _ _ | denied _ _ | passed _ _ | ipChecked _ _ | ipMissing _ _ _
  | moduleEnds _ _ _ | cancelled _ _ => exact h ip
  | dosDenied _ _ hdos => exact hcheck hdos
  | dosPassed _ _ hdos => exact hcheck hdos
  | aclEnds _ _ =>
    change (onTransactionEnd _ _ _).concurrent ip ≤ _
    rw [concurrent_onTransactionEnd]
    split
    · exact (Nat.sub_le _ _).trans (h ip)
    · exact h ip

/-! ## Runs -/

def fresh : ProxyServer := ⟨∅, ∅⟩

variable (chain) in
def Runs (C : ProxyServer → TransactionAction → Prop) : ProxyServer → ProxyServer → Prop :=
  Relation.ReflTransGen fun s s' => ∃ action, C s action ∧ s.step chain action = some s'

theorem Runs.allWf (h : Runs chain C fresh s) : AllWf chain s := by
  induction h with
  | refl =>
    intro tx t ht
    cases ht
  | tail _ hstep ih =>
    obtain ⟨action, -, hstep⟩ := hstep
    exact (step_cases hstep).allWf ih

theorem Runs.bounded (h : Runs chain C fresh s) (ip : IpAddr) :
    s.dosData.concurrent ip ≤ chain.cfg.dosMaxConcurrentPerIp.toNat := by
  induction h generalizing ip with
  | refl => exact Nat.zero_le _
  | tail _ hstep ih =>
    obtain ⟨action, -, hstep⟩ := hstep
    exact (step_cases hstep).bounded ih ip

theorem Runs.counted (h : Runs chain (Orderly chain) fresh s) : s.Counted := by
  induction h with
  | refl => exact fun _ => rfl
  | tail hruns hstep ih =>
    have hwf := Runs.allWf hruns
    obtain ⟨action, horderly, hstep⟩ := hstep
    exact ((step_cases hstep).counted_iff hwf ih).mpr horderly

theorem inProgress_eq_zero (hwf : AllWf chain s)
    (h : ∀ tx t, s.transactions.lookup tx = some t → t.request.sourceIp = some ip →
      t.phase = .ended) : s.inProgress ip = 0 := by
  apply List.sum_eq_zero_iff_forall_eq_nat.mpr
  intro n hn
  obtain ⟨⟨tx, t⟩, hrow, rfl⟩ := List.mem_map.mp hn
  have ht := Table.Row.lookup hrow
  apply if_neg
  rintro ⟨hholds, hip⟩
  have hnot := (hwf tx t ht).ended (h tx t ht hip)
  rw [hnot] at hholds
  cases hholds

/-- **What is counted for an address** is the number of its admitted transactions in progress, up to
the limit, in every run of orderly steps; a step that is not orderly makes the count wrong. -/
theorem admitted_counted (chain : ModuleChain) (s : ProxyServer)
    (h : Runs chain (Orderly chain) fresh s) : (∀ ip, s.dosData.concurrent ip = s.inProgress ip ∧
      s.dosData.concurrent ip ≤ chain.cfg.dosMaxConcurrentPerIp.toNat ∧
      ((∀ tx t, s.transactions.lookup tx = some t → t.request.sourceIp = some ip →
        t.phase = .ended) → s.dosData.concurrent ip = 0)) ∧
    ∀ action s', s.step chain action = some s' → ¬ Orderly chain s action →
      ∃ ip, s'.dosData.concurrent ip ≠ s'.inProgress ip := by
  have hwf := h.allWf
  have hcounted := h.counted
  constructor
  · intro ip
    refine ⟨hcounted ip, h.bounded ip, fun hended => ?_⟩
    rw [hcounted ip]
    exact inProgress_eq_zero hwf hended
  · intro action s' hstep hnot
    have hwrong : ¬ s'.Counted := fun hs' =>
      hnot (((step_cases hstep).counted_iff hwf hcounted).mp hs')
    exact not_forall.mp hwrong

theorem Runs.next (action : TransactionAction) (h : Runs chain C s s')
    (hstep : s'.step chain action = some s'') (hC : C s' action) : Runs chain C s s'' :=
  h.tail ⟨action, hC, hstep⟩

def guarded : ModuleChain where
  cfg := { dosEnabled := true, uriRejectMalformed := true }
  before := 0
  after := 1

def requestFrom (fromUri : FromUri) : AclRequest :=
  ⟨none, fromUri, some (.v4 192 0 2 1)⟩

theorem admitted_counted_one : ∃ s, Runs guarded (Orderly guarded) fresh s ∧
      s.dosData.concurrent (.v4 192 0 2 1) = s.inProgress (.v4 192 0 2 1) ∧
      s.inProgress (.v4 192 0 2 1) = 1 := by
  have h0 : Runs guarded (Orderly guarded) fresh fresh := .refl
  have h1 := h0.next (.arrive 0 (requestFrom (.uri "sip:a@b"))) rfl (fun _ _ => trivial)
  have h2 := h1.next (.aclBegins 0) rfl (fun _ _ => trivial)
  have h3 := h2.next (.aclChecksDos 0 1) rfl (by
    rintro t - - ip - ⟨_, hblock, -⟩
    cases hblock)
  exact ⟨_, h3, ((admitted_counted guarded _ h3).1 _).1, rfl⟩

/-- A request without a From header is denied: its end takes away what was counted for another of
the same address. -/
theorem denied_uncounts_admitted : ∃ s, Runs guarded (fun _ _ => True) fresh s ∧
      s.dosData.concurrent (.v4 192 0 2 1) = 0 ∧ s.inProgress (.v4 192 0 2 1) = 1 := by
  have h0 : Runs guarded (fun _ _ => True) fresh fresh := .refl
  have h1 := h0.next (.arrive 0 (requestFrom (.uri "sip:a@b"))) rfl trivial
  have h2 := h1.next (.aclBegins 0) rfl trivial
  have h3 := h2.next (.aclChecksDos 0 1) rfl trivial
  have h4 := h3.next (.arrive 1 (requestFrom .missing)) rfl trivial
  have h5 := h4.next (.aclBegins 1) rfl trivial
  have h6 := h5.next (.moduleEnds 1) rfl trivial
  exact ⟨_, h6, rfl, rfl⟩

end ProxyServer

end RustPbx.Proxy

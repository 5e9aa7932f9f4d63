import Mathlib.Logic.Function.Basic
import Solvan.Base.Machine

/-! Jobs with one outside effect each, worked on under leases with fencing
tokens. A worker reserves a job, prepares it, issues its effect once, hears
what came of it and settles the job. A dispatched job whose lease has lapsed
may be taken over, and the worker it is taken from need not notice. -/
namespace Fencing

inductive Verdict where
  | effect | noEffect | unknown
deriving DecidableEq, Repr

structure Lease (τ : Type v) where
  token : τ
  expires : Int

inductive Stage where
  | prepared | issued | reconciling
deriving DecidableEq, Repr

/-- How far a job is. -/
inductive Phase (τ : Type v) where
  | untouched
  | reserved (token : τ)
  | withdrawn
  | pending (stage : Stage) (lease : Lease τ)
  | settled (verdict : Verdict)

/-- The effect has been issued, if not by whoever holds the job now. -/
def Phase.Issued : Phase τ → Prop
  | .pending stage _ => stage ≠ .prepared
  | .settled _ => True
  | _ => False

/-- What a worker acts on. A worker that was taken over from still does. -/
inductive Hand (ι : Type u) (τ : Type v) where
  | empty
  | reserving (job : ι) (token : τ)
  | issuing (job : ι) (token : τ)
  | sending (job : ι) (lease : Lease τ)
  | settling (job : ι) (token : τ)
  | decided (job : ι) (token : τ) (verdict : Verdict)

@[simp] def Hand.token : Hand ι τ → Option τ
  | .empty => none
  | .reserving _ token | .issuing _ token | .settling _ token | .decided _ token _ => some token
  | .sending _ lease => some lease.token

structure System (ι : Type u) (κ : Type w) (τ : Type v) where
  now : Int
  phase : ι → Phase τ
  hand : κ → Hand ι τ
  drawn : τ → Prop
  sent : List ι
  inFlight : List ι

variable {ι : Type u} {κ : Type w} {τ : Type v} [DecidableEq ι] [DecidableEq κ]
  {s s' : System ι κ τ} {ask : System ι κ τ → ι → Prop}

def System.move (s : System ι κ τ) (w : κ) (job : ι) (phase : Phase τ) (hand : Hand ι τ) :
    System ι κ τ :=
  { s with phase := Function.update s.phase job phase, hand := Function.update s.hand w hand }

def System.take (s : System ι κ τ) (w : κ) (hand : Hand ι τ) : System ι κ τ :=
  { s with hand := Function.update s.hand w hand }

def System.draw (s : System ι κ τ) (token : τ) : System ι κ τ :=
  { s with drawn := fun t => t = token ∨ s.drawn t }

/-- The hand that goes on with a job taken over at a stage. -/
def Stage.resume (job : ι) (token : τ) : Stage → Hand ι τ
  | .prepared => .issuing job token
  | _ => .settling job token

/-- What one worker, the clock or the network does. A verdict that concludes is
sought only when `ask` allows it. -/
inductive Step (ask : System ι κ τ → ι → Prop) (s : System ι κ τ) : System ι κ τ → Prop where
  | tick {now : Int} (later : s.now ≤ now) : Step ask s { s with now }
  | drop (w : κ) : Step ask s (s.take w .empty)
  | reserve {w : κ} {job : ι} {token : τ} (idle : s.hand w = .empty)
      (free : s.phase job = .untouched) (fresh : ¬s.drawn token) :
      Step ask s ((s.draw token).move w job (.reserved token) (.reserving job token))
  | withdraw {w : κ} {job : ι} {token : τ} (holds : s.hand w = .reserving job token) :
      Step ask s (s.move w job .withdrawn .empty)
  | prepare {w : κ} {job : ι} {token : τ} {lease : Lease τ}
      (holds : s.hand w = .reserving job token) (fresh : ¬s.drawn lease.token) :
      Step ask s ((s.draw lease.token).move w job (.pending .prepared lease)
        (.issuing job lease.token))
  | takeOver {w : κ} {job : ι} {stage : Stage} {lease next : Lease τ} (idle : s.hand w = .empty)
      (open_ : s.phase job = .pending stage lease) (lapsed : lease.expires < s.now)
      (fresh : ¬s.drawn next.token) :
      Step ask s ((s.draw next.token).move w job (.pending stage next)
        (stage.resume job next.token))
  | issue {w : κ} {job : ι} {lease : Lease τ} {expires : Int}
      (holds : s.hand w = .issuing job lease.token)
      (open_ : s.phase job = .pending .prepared lease) :
      Step ask s (s.move w job (.pending .issued ⟨lease.token, expires⟩)
        (.sending job ⟨lease.token, expires⟩))
  | send {w : κ} {job : ι} {lease : Lease τ} (holds : s.hand w = .sending job lease) :
      Step ask s { s.take w (.settling job lease.token) with
        sent := job :: s.sent
        inFlight := job :: s.inFlight }
  | acknowledge {w : κ} {job : ι} {stage : Stage} {lease : Lease τ} {expires : Int}
      (holds : s.hand w = .settling job lease.token) (open_ : s.phase job = .pending stage lease) :
      Step ask s (s.move w job (.pending .reconciling ⟨lease.token, expires⟩)
        (.settling job lease.token))
  | decide {w : κ} {job : ι} {token : τ} (verdict : Verdict)
      (holds : s.hand w = .settling job token) (asked : verdict ≠ .unknown → ask s job) :
      Step ask s (s.take w (.decided job token verdict))
  | settle {w : κ} {job : ι} {lease : Lease τ} {verdict : Verdict}
      (holds : s.hand w = .decided job lease.token verdict)
      (open_ : s.phase job = .pending .reconciling lease) :
      Step ask s (s.move w job (.settled verdict) .empty)
  | land (job : ι) : Step ask s { s with inFlight := s.inFlight.erase job }

/-- What a hand may rely on. -/
def Hand.Fits (now : Int) (phase : ι → Phase τ) : Hand ι τ → Prop
  | .empty | .issuing _ _ => True
  | .reserving job token => phase job = .reserved token
  | .sending job lease =>
    phase job = .pending .issued lease ∨ (phase job).Issued ∧ lease.expires < now
  | .settling job _ | .decided job _ _ => (phase job).Issued

/-- The invariant of the protocol. -/
structure Sound (s : System ι κ τ) : Prop where
  drawn : ∀ w token, (s.hand w).token = some token → s.drawn token
  distinct : ∀ w w' token, (s.hand w).token = some token → (s.hand w').token = some token → w = w'
  fits : ∀ w, (s.hand w).Fits s.now s.phase
  sentIssued : ∀ job ∈ s.sent, (s.phase job).Issued
  sentOnce : s.sent.Nodup
  unsent : ∀ w job lease, s.hand w = .sending job lease → job ∉ s.sent
  oneSender : ∀ w w' job lease lease', s.hand w = .sending job lease →
    s.hand w' = .sending job lease' → w = w'
  flying : ∀ job ∈ s.inFlight, job ∈ s.sent

variable {w w' : κ} {job : ι} {hand : Hand ι τ} {p : Phase τ} {token : τ} {now : Int}
  {phase : ι → Phase τ} {lease next : Lease τ} {stage : Stage} {verdict : Verdict} {expires : Int}

/-- A hand keeps fitting when a phase changes under it, as long as nothing it
relies on is undone. -/
theorem Hand.Fits.update (h : hand.Fits now phase)
    (reserving : ∀ token, hand = .reserving job token → p = .reserved token)
    (sending : ∀ lease, hand = .sending job lease →
      p = .pending .issued lease ∨ lease.expires < now)
    (issued : (phase job).Issued → p.Issued) : hand.Fits now (Function.update phase job p) := by
  cases hand with
  | empty | issuing => trivial
  | reserving job' token =>
    by_cases hj : job' = job
    · subst hj
      simp only [Fits, Function.update_self]
      exact reserving token rfl
    · simpa only [Fits, Function.update_of_ne hj] using h
  | sending job' lease =>
    by_cases hj : job' = job
    · subst hj
      simp only [Fits, Function.update_self]
      have hissued : p.Issued := by
        rcases h with hp | ⟨hi, -⟩
        · exact issued (by simp [hp, Phase.Issued])
        · exact issued hi
      exact (sending lease rfl).imp_right (fun lapsed => ⟨hissued, lapsed⟩)
    · simpa only [Fits, Function.update_of_ne hj] using h
  | settling job' token | decided job' token verdict =>
    by_cases hj : job' = job
    · subst hj
      simp only [Fits, Function.update_self]
      exact issued h
    · simpa only [Fits, Function.update_of_ne hj] using h

omit [DecidableEq ι] in
theorem Hand.Fits.later {now' : Int} (h : hand.Fits now phase) (later : now ≤ now') :
    hand.Fits now' phase := by
  cases hand with
  | sending job lease => exact h.imp_right (fun ⟨hi, lapsed⟩ => ⟨hi, Int.lt_of_lt_of_le lapsed later⟩)
  | _ => exact h

omit [DecidableEq ι] in
/-- A hand is replaced by one that fits and shares its token with no other. -/
theorem Sound.take (h : Sound s)
    (drawn : ∀ token, hand.token = some token → s.drawn token ∧
      ∀ w', (s.hand w').token = some token → w' = w)
    (fits : hand.Fits s.now s.phase)
    (sending : ∀ job lease, hand = .sending job lease →
      job ∉ s.sent ∧ ∀ w' lease', s.hand w' ≠ .sending job lease') :
    Sound (s.take w hand) := by
  have hself : (s.take w hand).hand w = hand := Function.update_self ..
  have hother : ∀ w', w' ≠ w → (s.take w hand).hand w' = s.hand w' :=
    fun w' hw => Function.update_of_ne hw ..
  refine ⟨?_, ?_, ?_, h.sentIssued, h.sentOnce, ?_, ?_, h.flying⟩
  · intro w' token ht
    by_cases hw : w' = w
    · subst hw
      exact (drawn token (hself ▸ ht)).1
    · exact h.drawn w' token (hother w' hw ▸ ht)
  · intro w₁ w₂ token h₁ h₂
    by_cases hw₁ : w₁ = w
    · by_cases hw₂ : w₂ = w
      · exact hw₁.trans hw₂.symm
      · subst hw₁
        exact ((drawn token (hself ▸ h₁)).2 w₂ (hother w₂ hw₂ ▸ h₂)).symm
    · by_cases hw₂ : w₂ = w
      · subst hw₂
        exact (drawn token (hself ▸ h₂)).2 w₁ (hother w₁ hw₁ ▸ h₁)
      · exact h.distinct w₁ w₂ token (hother w₁ hw₁ ▸ h₁) (hother w₂ hw₂ ▸ h₂)
  · intro w'
    by_cases hw : w' = w
    · subst hw
      exact hself.symm ▸ fits
    · exact (hother w' hw).symm ▸ h.fits w'
  · intro w' job lease hs
    by_cases hw : w' = w
    · subst hw
      exact (sending job lease (hself ▸ hs)).1
    · exact h.unsent w' job lease (hother w' hw ▸ hs)
  · intro w₁ w₂ job lease lease' h₁ h₂
    by_cases hw₁ : w₁ = w
    · by_cases hw₂ : w₂ = w
      · exact hw₁.trans hw₂.symm
      · subst hw₁
        exact absurd (hother w₂ hw₂ ▸ h₂) ((sending job lease (hself ▸ h₁)).2 w₂ lease')
    · by_cases hw₂ : w₂ = w
      · subst hw₂
        exact absurd (hother w₁ hw₁ ▸ h₁) ((sending job lease' (hself ▸ h₂)).2 w₁ lease)
      · exact h.oneSender w₁ w₂ job lease lease' (hother w₁ hw₁ ▸ h₁) (hother w₂ hw₂ ▸ h₂)

omit [DecidableEq κ] in
/-- A phase changes under all hands. -/
theorem Sound.reach (h : Sound s) (fits : ∀ w, (s.hand w).Fits s.now (Function.update s.phase job p))
    (issued : (s.phase job).Issued → p.Issued) :
    Sound { s with phase := Function.update s.phase job p } := by
  refine ⟨h.drawn, h.distinct, fits, ?_, h.sentOnce, h.unsent, h.oneSender, h.flying⟩
  intro job' hs
  by_cases hj : job' = job
  · subst hj
    simpa only [Function.update_self] using issued (h.sentIssued job' hs)
  · simpa only [Function.update_of_ne hj] using h.sentIssued job' hs

omit [DecidableEq ι] [DecidableEq κ] in
theorem Sound.draw (h : Sound s) (token : τ) : Sound (s.draw token) :=
  ⟨fun w t ht => .inr (h.drawn w t ht), h.distinct, h.fits, h.sentIssued, h.sentOnce, h.unsent,
    h.oneSender, h.flying⟩

/-- A worker moves a job on. What others rely on has to survive. -/
theorem Sound.move (h : Sound s)
    (drawn : ∀ token, hand.token = some token → s.drawn token ∧
      ∀ w', (s.hand w').token = some token → w' = w)
    (fits : hand.Fits s.now (Function.update s.phase job p))
    (reserving : ∀ w' token, w' ≠ w → s.hand w' = .reserving job token → p = .reserved token)
    (sending : ∀ w' lease, w' ≠ w → s.hand w' = .sending job lease →
      p = .pending .issued lease ∨ lease.expires < s.now)
    (issued : (s.phase job).Issued → p.Issued)
    (sender : ∀ job lease, hand = .sending job lease →
      job ∉ s.sent ∧ ∀ w' lease', s.hand w' ≠ .sending job lease') :
    Sound (s.move w job p hand) := by
  have hself : (s.take w .empty).hand w = .empty := Function.update_self ..
  have hother : ∀ w', w' ≠ w → (s.take w .empty).hand w' = s.hand w' :=
    fun w' hw => Function.update_of_ne hw ..
  have hdropped : Sound (s.take w .empty) :=
    h.take (fun token ht => (nomatch ht)) trivial (fun _ _ hs => (nomatch hs))
  have hchanged : Sound { s.take w .empty with phase := Function.update s.phase job p } := by
    refine hdropped.reach (fun w' => ?_) issued
    by_cases hw : w' = w
    · subst hw
      rw [hself]
      trivial
    · rw [hother w' hw]
      exact (h.fits w').update (fun token => reserving w' token hw)
        (fun lease => sending w' lease hw) issued
  have hmoved : Sound
      (({ s.take w .empty with phase := Function.update s.phase job p }).take w hand) := by
    refine hchanged.take ?_ fits ?_
    · intro token ht
      refine ⟨(drawn token ht).1, fun w' hw' => ?_⟩
      by_cases hw : w' = w
      · exact hw
      · exact (drawn token ht).2 w' (hother w' hw ▸ hw')
    · intro job' lease hs
      refine ⟨(sender job' lease hs).1, fun w' lease' hw' => ?_⟩
      by_cases hw : w' = w
      · subst hw
        exact nomatch hself.symm.trans hw'
      · exact (sender job' lease hs).2 w' lease' (hother w' hw ▸ hw')
  simpa only [System.take, System.move, Function.update_idem] using hmoved

omit [DecidableEq ι] [DecidableEq κ] in
/-- A token just drawn is in nobody's hand. -/
theorem Sound.fresh (h : Sound s) (fresh : ¬s.drawn token) :
    (s.draw token).drawn token ∧ ∀ w', ((s.draw token).hand w').token = some token → w' = w :=
  ⟨.inl rfl, fun w' ht => absurd (h.drawn w' token ht) fresh⟩

omit [DecidableEq ι] [DecidableEq κ] in
theorem Sound.mine (h : Sound s) (holds : (s.hand w).token = some token) :
    s.drawn token ∧ ∀ w', (s.hand w').token = some token → w' = w :=
  ⟨h.drawn w token holds, fun w' hw' => h.distinct w' w token hw' holds⟩

omit [DecidableEq ι] [DecidableEq κ] in
theorem Sound.reserving (h : Sound s) (hw : s.hand w = .reserving job token) :
    s.phase job = .reserved token := by
  have := h.fits w
  rwa [hw] at this

omit [DecidableEq ι] [DecidableEq κ] in
theorem Sound.sending (h : Sound s) (hw : s.hand w = .sending job lease) :
    s.phase job = .pending .issued lease ∨ (s.phase job).Issued ∧ lease.expires < s.now := by
  have := h.fits w
  rwa [hw] at this

omit [DecidableEq ι] [DecidableEq κ] in
theorem Sound.settling (h : Sound s) (hw : s.hand w = .settling job token) :
    (s.phase job).Issued := by
  have := h.fits w
  rwa [hw] at this

omit [DecidableEq ι] [DecidableEq κ] in
theorem Sound.decided (h : Sound s) (hw : s.hand w = .decided job token verdict) :
    (s.phase job).Issued := by
  have := h.fits w
  rwa [hw] at this

omit [DecidableEq ι] [DecidableEq κ] in
/-- Nobody else reserves the same job. -/
theorem Sound.reserver {token' : τ} (h : Sound s) (hw : s.hand w = .reserving job token)
    (hw' : s.hand w' = .reserving job token') : w' = w := by
  have htoken : token' = token := by simpa [h.reserving hw] using (h.reserving hw').symm
  exact h.distinct w' w token (by simp [hw', htoken]) (by simp [hw])

/-- The invariant survives every step. -/
theorem Step.sound (step : Step ask s s') (h : Sound s) : Sound s' := by
  cases step with
  | tick later => exact { h with fits := fun w => (h.fits w).later later }
  | drop w => exact h.take (fun token ht => (nomatch ht)) trivial (fun _ _ hs => (nomatch hs))
  | @reserve w job token idle free fresh =>
    refine (h.draw token).move ?_ (by simp [Hand.Fits]) ?_ ?_ ?_ (by simp)
    · rintro _ ⟨⟩
      exact h.fresh fresh
    · intro w' token' _ hw'
      have := free.symm.trans (h.reserving hw')
      cases this
    · intro w' lease _ hw'
      have := h.sending hw'
      simp [free, Phase.Issued] at this
    · show (s.phase job).Issued → _
      simp [free, Phase.Issued]
  | @withdraw w job token holds =>
    have hphase := h.reserving holds
    refine h.move (by simp) trivial ?_ ?_ ?_ (by simp)
    · intro w' token' hne hw'
      exact absurd (h.reserver holds hw') hne
    · intro w' lease _ hw'
      have := h.sending hw'
      simp [hphase, Phase.Issued] at this
    · simp [hphase, Phase.Issued]
  | @prepare w job token lease holds fresh =>
    have hphase := h.reserving holds
    refine (h.draw lease.token).move ?_ trivial ?_ ?_ ?_ (by simp)
    · rintro _ ⟨⟩
      exact h.fresh fresh
    · intro w' token' hne hw'
      exact absurd (h.reserver holds hw') hne
    · intro w' lease _ hw'
      have := h.sending hw'
      simp [hphase, Phase.Issued] at this
    · show (s.phase job).Issued → _
      simp [hphase, Phase.Issued]
  | @takeOver w job stage lease next idle open_ lapsed fresh =>
    refine (h.draw next.token).move ?_ ?_ ?_ ?_ ?_ ?_
    · intro token ht
      have htoken : token = next.token := by cases stage <;> exact (Option.some.inj ht).symm
      subst htoken
      exact h.fresh fresh
    · cases stage with
      | prepared => trivial
      | _ => simp [Stage.resume, Hand.Fits, Phase.Issued]
    · intro w' token' _ hw'
      have := open_.symm.trans (h.reserving hw')
      cases this
    · intro w' lease' _ hw'
      rcases h.sending hw' with hp | ⟨-, hlapsed⟩
      · cases open_.symm.trans hp
        exact .inr lapsed
      · exact .inr hlapsed
    · show (s.phase job).Issued → _
      rw [open_]
      exact id
    · cases stage <;> simp [Stage.resume]
  | @issue w job lease expires holds open_ =>
    refine h.move ?_ (by simp [Hand.Fits]) ?_ ?_ ?_ ?_
    · rintro _ ⟨⟩
      exact h.mine (by simp [holds])
    · intro w' token' _ hw'
      have := open_.symm.trans (h.reserving hw')
      cases this
    · intro w' lease' _ hw'
      have := h.sending hw'
      simp [open_, Phase.Issued] at this
    · simp [open_, Phase.Issued]
    · rintro _ _ ⟨⟩
      refine ⟨fun hs => ?_, fun w' lease' hw' => ?_⟩
      · have := h.sentIssued job hs
        simp [open_, Phase.Issued] at this
      · have := h.sending hw'
        simp [open_, Phase.Issued] at this
  | @send w job lease holds =>
    have hissued : (s.phase job).Issued := by
      rcases h.sending holds with hp | ⟨hi, -⟩
      · simp [hp, Phase.Issued]
      · exact hi
    have htaken : Sound (s.take w (.settling job lease.token)) := by
      refine h.take ?_ hissued (by simp)
      rintro _ ⟨⟩
      exact h.mine (by simp [holds])
    refine { htaken with sentIssued := ?_, sentOnce := ?_, unsent := ?_, flying := ?_ }
    · intro job' hs
      rcases List.mem_cons.mp hs with rfl | hs
      · exact hissued
      · exact h.sentIssued job' hs
    · exact List.nodup_cons.mpr ⟨h.unsent w job lease holds, h.sentOnce⟩
    · intro w' job' lease' hw' hs
      rcases List.mem_cons.mp hs with rfl | hs
      · by_cases hw : w' = w
        · subst hw
          simp [System.take] at hw'
        · have hw' : s.hand w' = .sending job' lease' := by
            simpa only [System.take, Function.update_of_ne hw] using hw'
          exact hw (h.oneSender w' w job' lease' lease hw' holds)
      · exact htaken.unsent w' job' lease' hw' hs
    · intro job' hf
      rcases List.mem_cons.mp hf with rfl | hf
      · exact List.mem_cons_self
      · exact List.mem_cons_of_mem _ (h.flying job' hf)
  | @acknowledge w job stage lease expires holds open_ =>
    have hissued := h.settling holds
    refine h.move ?_ (by simp [Hand.Fits, Phase.Issued]) ?_ ?_ (by simp [Phase.Issued]) (by simp)
    · rintro _ ⟨⟩
      exact h.mine (by simp [holds])
    · intro w' token' _ hw'
      have := open_.symm.trans (h.reserving hw')
      cases this
    · intro w' lease' hne hw'
      rcases h.sending hw' with hp | ⟨-, hlapsed⟩
      · cases open_.symm.trans hp
        exact absurd (h.distinct w' w lease.token (by simp [hw'])
          (by simp [holds])) hne
      · exact .inr hlapsed
  | @decide w job token verdict holds asked =>
    refine h.take ?_ (h.settling holds) (by simp)
    rintro _ ⟨⟩
    exact h.mine (by simp [holds])
  | @settle w job lease verdict holds open_ =>
    refine h.move (by simp) trivial ?_ ?_ (by simp [Phase.Issued]) (by simp)
    · intro w' token' _ hw'
      have := open_.symm.trans (h.reserving hw')
      cases this
    · intro w' lease' _ hw'
      rcases h.sending hw' with hp | ⟨-, hlapsed⟩
      · cases open_.symm.trans hp
      · exact .inr hlapsed
  | land job => exact { h with flying := fun job' hf => h.flying job' (List.mem_of_mem_erase hf) }

/-- No effect of a job is still to come: nobody is about to send it and none
is on its way. -/
def Quiet (s : System ι κ τ) (job : ι) : Prop :=
  (∀ w lease, s.hand w ≠ .sending job lease) ∧ job ∉ s.inFlight

/-- A verdict on a job is in, and it concludes. -/
def Judged (s : System ι κ τ) (job : ι) : Prop :=
  (∃ verdict, verdict ≠ .unknown ∧ s.phase job = .settled verdict) ∨
    ∃ w token verdict, verdict ≠ .unknown ∧ s.hand w = .decided job token verdict

variable {j : ι}

omit [DecidableEq ι] in
theorem Quiet.take (h : Quiet s j) (sending : ∀ lease, hand ≠ .sending j lease) :
    Quiet (s.take w hand) j := by
  refine ⟨fun w' lease hw' => ?_, h.2⟩
  by_cases hw : w' = w
  · subst hw
    simp only [System.take, Function.update_self] at hw'
    exact sending lease hw'
  · simp only [System.take, Function.update_of_ne hw] at hw'
    exact h.1 w' lease hw'

omit [DecidableEq ι] in
theorem Judged.of_take (h : Judged (s.take w hand) j)
    (decided : ∀ token verdict, verdict ≠ .unknown → hand = .decided j token verdict →
      Judged s j) : Judged s j := by
  rcases h with hsettled | ⟨w', token, verdict, hv, hw'⟩
  · exact .inl hsettled
  · by_cases hw : w' = w
    · subst hw
      simp only [System.take, Function.update_self] at hw'
      exact decided token verdict hv hw'
    · simp only [System.take, Function.update_of_ne hw] at hw'
      exact .inr ⟨w', token, verdict, hv, hw'⟩

theorem Judged.of_move (h : Judged (s.move w job p hand) j)
    (settled : ∀ verdict, verdict ≠ .unknown → j = job → p = .settled verdict → Judged s j)
    (decided : ∀ token verdict, verdict ≠ .unknown → hand = .decided j token verdict →
      Judged s j) : Judged s j := by
  rcases h with ⟨verdict, hv, hp⟩ | hdecided
  · by_cases hj : j = job
    · subst hj
      simp only [System.move, Function.update_self] at hp
      exact settled verdict hv rfl hp
    · simp only [System.move, Function.update_of_ne hj] at hp
      exact .inl ⟨verdict, hv, hp⟩
  · exact Judged.of_take (.inr hdecided) decided

omit [DecidableEq ι] [DecidableEq κ] in
theorem Judged.issued (h : Judged s j) (sound : Sound s) : (s.phase j).Issued := by
  rcases h with ⟨verdict, -, hp⟩ | ⟨w, token, verdict, -, hw⟩
  · simp [hp, Phase.Issued]
  · exact sound.decided hw

/-- Conclusive verdicts sought only on quiet jobs are final. -/
theorem Step.final (step : Step Quiet s s') (sound : Sound s) (h : ∀ job, Judged s job → Quiet s job) :
    ∀ job, Judged s' job → Quiet s' job := by
  intro j hj
  cases step with
  | tick later => exact h j hj
  | drop w => exact (h j (hj.of_take (by simp))).take (by simp)
  | reserve => exact (h j (Judged.of_move (s := s.draw _) hj (by simp) (by simp))).take (by simp)
  | withdraw => exact (h j (hj.of_move (by simp) (by simp))).take (by simp)
  | prepare => exact (h j (Judged.of_move (s := s.draw _) hj (by simp) (by simp))).take (by simp)
  | @takeOver w job stage lease next =>
    refine (h j (Judged.of_move (s := s.draw _) hj (by simp) ?_)).take ?_
    · cases stage <;> simp [Stage.resume]
    · cases stage <;> simp [Stage.resume]
  | @issue w job lease expires holds open_ =>
    have hold := hj.of_move (by simp) (by simp)
    refine (h j hold).take ?_
    rintro _ ⟨⟩
    have := hold.issued sound
    simp [open_, Phase.Issued] at this
  | @send w job lease holds =>
    have hold : Judged s j := hj.of_take (by simp)
    have hquiet := h j hold
    have hne : j ≠ job := by
      rintro rfl
      exact hquiet.1 w lease holds
    have htaken : Quiet (s.take w (.settling job lease.token)) j := hquiet.take (by simp)
    exact ⟨htaken.1, by simpa [hne] using hquiet.2⟩
  | acknowledge => exact (h j (hj.of_move (by simp) (by simp))).take (by simp)
  | @decide w job token verdict holds asked =>
    by_cases hjob : j = job ∧ verdict ≠ .unknown
    · exact (hjob.1 ▸ asked hjob.2).take (by simp)
    · refine (h j (hj.of_take ?_)).take (by simp)
      intro _ _ hv hd
      cases hd
      exact absurd ⟨rfl, hv⟩ hjob
  | @settle w job lease verdict holds open_ =>
    refine (h j (hj.of_move ?_ (by simp))).take (by simp)
    intro _ hv hjob hp
    cases hp
    exact .inr ⟨w, _, _, hv, hjob ▸ holds⟩
  | land job => exact ⟨(h j hj).1, fun hf => (h j hj).2 (List.mem_of_mem_erase hf)⟩

/-- The protocol as a machine. -/
def machine (ask : System ι κ τ → ι → Prop) : Machine (System ι κ τ) Unit where
  start s := (∀ job, s.phase job = .untouched) ∧ (∀ w, s.hand w = .empty) ∧ s.sent = [] ∧
    s.inFlight = []
  step s _ s' := Step ask s s'

theorem sound_of_reach (h : (machine ask).Reach s) : Sound s := by
  refine h.invariant (I := Sound) ?_ (fun s _ s' _ sound step => Step.sound step sound)
  rintro s ⟨hphase, hhand, hsent, hflight⟩
  refine ⟨?_, ?_, ?_, ?_, ?_, ?_, ?_, ?_⟩
  all_goals simp [hhand, hsent, hflight, Hand.Fits]

theorem final_of_reach (h : (machine Quiet).Reach s) : ∀ job, Judged s job → Quiet s job := by
  refine h.invariant (I := fun s => ∀ job, Judged s job → Quiet s job) ?_
    (fun s _ s' hr final step => Step.final step (sound_of_reach hr) final)
  rintro s ⟨hphase, hhand, -, -⟩ job hj
  simp [Judged, hphase, hhand] at hj

/-- Where conclusive verdicts are sought only on quiet jobs, an effect that
arrives finds its job open, or settled without a conclusion. -/
theorem open_of_flying (h : (machine Quiet).Reach s) (hf : j ∈ s.inFlight) :
    (∃ stage lease, s.phase j = .pending stage lease) ∨ s.phase j = .settled .unknown := by
  have sound := sound_of_reach h
  have hissued := sound.sentIssued j (sound.flying j hf)
  cases hp : s.phase j with
  | pending stage lease => exact .inl ⟨stage, lease, rfl⟩
  | settled verdict =>
    by_cases hv : verdict = .unknown
    · exact .inr (by rw [hv])
    · exact absurd hf (final_of_reach h j (.inl ⟨verdict, hv, hp⟩)).2
  | _ => simp [hp, Phase.Issued] at hissued

end Fencing

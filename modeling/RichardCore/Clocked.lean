import Mathlib.Data.Nat.Notation
import Mathlib.Tactic.Basic

/-!
# Runs of clocked machines

A clocked machine is a step function over states and per-cycle inputs. This
module gives runs over input streams, the invariant rules for them, the
projection of an instrumented machine onto a plain one, event logs with the
tally of their events, events that keep a schedule, and polls for the first
observation.
-/

namespace RichardCore.Clocked

section Runs

variable {σ τ ι : Type*}

/-- State after `t` clock edges under an input stream. -/
def runFrom (step : σ → ι → σ) (init : σ) (inputs : ℕ → ι) : ℕ → σ
  | 0 => init
  | t+1 => step (runFrom step init inputs t) (inputs t)

/-- Invariant rule in which each step may use a condition that the run is
known to meet at that cycle. -/
theorem runFrom_invariant (Inv : σ → Prop) (Meets : σ → ι → Prop) {step : σ → ι → σ} {init : σ}
    {inputs : ℕ → ι} (hinit : Inv init)
    (hstep : ∀ s i, Inv s → Meets s i → Inv (step s i)) (t : ℕ)
    (hmeets : ∀ u<t, Meets (runFrom step init inputs u) (inputs u)) :
    Inv (runFrom step init inputs t) := by
  induction t with
  | zero => exact hinit
  | succ t ih =>
    have hprev := ih fun u hu => hmeets u (Nat.lt_succ_of_lt hu)
    exact hstep _ _ hprev (hmeets t (Nat.lt_succ_self t))

/-- Unconditional invariant rule. -/
theorem runFrom_always (Inv : σ → Prop) {step : σ → ι → σ} {init : σ} (hinit : Inv init)
    (hstep : ∀ s i, Inv s → Inv (step s i)) (inputs : ℕ → ι) (t : ℕ) :
    Inv (runFrom step init inputs t) :=
  runFrom_invariant Inv (fun _ _ => True) hinit (fun s i h _ => hstep s i h) t
    fun _ _ => trivial

/-- What a machine holds came in at some cycle and was kept by every cycle
since. -/
theorem runFrom_since {α : Type*} (Holds : σ → α → Prop) (Comes Kept : ι → α → Prop)
    {step : σ → ι → σ} {init : σ} (hinit : ∀ a,¬Holds init a)
    (hstep : ∀ s i a,Holds (step s i) a → Comes i a ∨ Holds s a ∧ Kept i a)
    (inputs : ℕ → ι) (t : ℕ) (a : α) (h : Holds (runFrom step init inputs t) a) :
    ∃ u < t,Comes (inputs u) a ∧ ∀ v,u < v → v < t → Kept (inputs v) a := by
  induction t with
  | zero => exact absurd h (hinit a)
  | succ t ih =>
    obtain hcomes | ⟨hheld,hkept⟩ := hstep _ _ _ h
    · exact ⟨t,Nat.lt_succ_self t,hcomes,fun v hlo hhi => absurd hhi (by omega)⟩
    · obtain ⟨u,hu,hcame,hsince⟩ := ih hheld
      refine ⟨u,Nat.lt_succ_of_lt hu,hcame,fun v hlo hhi => ?_⟩
      obtain heq | hlt := Nat.eq_or_lt_of_le (Nat.le_of_lt_succ hhi)
      · exact heq ▸ hkept
      · exact hsince v hlo hlt

/-- A run continued from an intermediate state is the tail of the run. -/
theorem runFrom_add (step : σ → ι → σ) (init : σ) (inputs : ℕ → ι) (t k : ℕ) :
    runFrom step init inputs (t+k)=
      runFrom step (runFrom step init inputs t) (fun u => inputs (t+u)) k := by
  induction k with
  | zero => rfl
  | succ k ih =>
    change step (runFrom step init inputs (t+k)) (inputs (t+k))=_
    rw [ih]
    rfl

/-- A run depends on its past inputs only. -/
theorem runFrom_congr (step : σ → ι → σ) (init : σ) {inputs inputs' : ℕ → ι} (t : ℕ)
    (h : ∀ u<t,inputs u=inputs' u) : runFrom step init inputs t=runFrom step init inputs' t := by
  induction t with
  | zero => rfl
  | succ t ih =>
    change step _ _=step _ _
    rw [ih fun u hu => h u (Nat.lt_succ_of_lt hu),h t (Nat.lt_succ_self t)]

/-- An instrumented machine whose projection steps like a plain machine
projects onto the plain run. -/
theorem runFrom_project {step : σ → ι → σ} {plain : τ → ι → τ} (proj : σ → τ)
    (hproj : ∀ s i, proj (step s i)=plain (proj s) i) (init : σ) (inputs : ℕ → ι) (t : ℕ) :
    proj (runFrom step init inputs t)=runFrom plain (proj init) inputs t := by
  induction t with
  | zero => rfl
  | succ t ih =>
    change proj (step _ _)=plain _ _
    rw [hproj,ih]

end Runs

section Logs

variable {ε : Type*}

/-- Events of the first `t` cycles, in order. -/
def eventLog (events : ℕ → List ε) : ℕ → List ε
  | 0 => []
  | t+1 => eventLog events t++events t

/-- Logs only grow. -/
theorem eventLog_mono (events : ℕ → List ε) {t u : ℕ} (h : t≤u) :
    eventLog events t<+:eventLog events u := by
  obtain ⟨k,rfl⟩ := Nat.exists_eq_add_of_le h
  clear h
  induction k with
  | zero => exact List.prefix_refl _
  | succ k ih => exact ih.trans (List.prefix_append _ _)

/-- A logged event took place in one of the cycles. -/
theorem mem_eventLog {events : ℕ → List ε} {t : ℕ} {e : ε} :
    e∈eventLog events t ↔ ∃ u < t,e∈events u := by
  induction t with
  | zero => simp [eventLog]
  | succ t ih =>
    rw [eventLog,List.mem_append,ih]
    constructor
    · rintro (⟨u,hu,he⟩ | he)
      · exact ⟨u,Nat.lt_succ_of_lt hu,he⟩
      · exact ⟨t,Nat.lt_succ_self t,he⟩
    · rintro ⟨u,hu,he⟩
      obtain hlt | rfl := Nat.lt_succ_iff_lt_or_eq.mp hu
      · exact .inl ⟨u,hlt,he⟩
      · exact .inr he

/-- Number of earlier cycles in which an event took place. -/
def tally (happens : ℕ → Bool) : ℕ → ℕ
  | 0 => 0
  | t+1 => tally happens t+(happens t).toNat

/-- Tallies only grow. -/
theorem tally_mono (happens : ℕ → Bool) {t u : ℕ} (h : t≤u) : tally happens t≤tally happens u := by
  obtain ⟨k,rfl⟩ := Nat.exists_eq_add_of_le h
  clear h
  induction k with
  | zero => exact Nat.le_refl _
  | succ k ih => exact Nat.le_trans ih (Nat.le_add_right _ _)

/-- Two event streams, one a cycle behind the other, have the same tally a
cycle apart. -/
theorem tally_shift {early late : ℕ → Bool} (hzero : late 0=false)
    (hshift : ∀ t,late (t+1)=early t) (t : ℕ) : tally late (t+1)=tally early t := by
  induction t with
  | zero =>
    change 0+(late 0).toNat=0
    rw [hzero]
    rfl
  | succ t ih =>
    change tally late (t+1)+(late (t+1)).toNat=tally early t+(early t).toNat
    rw [ih,hshift]

/-- When each cycle logs the next entry of a second log or nothing, the log is
an initial segment of the second one, as long as the tally. -/
theorem eventLog_tally {events entries : ℕ → List ε} {happens : ℕ → Bool}
    (h : ∀ t,events t=if happens t then entries (tally happens t) else []) (t : ℕ) :
    eventLog events t=eventLog entries (tally happens t) := by
  induction t with
  | zero => rfl
  | succ t ih =>
    rw [eventLog,ih,h,tally]
    cases happens t with
    | false => simp
    | true => rfl

/-- Number of events since the last reset. -/
def tallySince (reset happens : ℕ → Bool) : ℕ → ℕ
  | 0 => 0
  | t+1 => if reset t then 0 else tallySince reset happens t+(happens t).toNat

/-- Two kinds of events that make up a third are counted apart. -/
theorem tallySince_add {reset all left right : ℕ → Bool}
    (h : ∀ t,(all t).toNat=(left t).toNat+(right t).toNat) (t : ℕ) :
    tallySince reset all t=tallySince reset left t+tallySince reset right t := by
  induction t with
  | zero => rfl
  | succ t ih =>
    unfold tallySince
    cases reset t with
    | true => rfl
    | false =>
      have hnow := h t
      simp only [Bool.false_eq_true,if_false]
      omega

end Logs

section Schedules

/-- Events that keep a schedule: event `n` takes place in cycle `due n`, and
at no time is the next one overdue. -/
structure OnSchedule (due : ℕ → ℕ) (happens : ℕ → Bool) : Prop where
  /-- Later events are due later. -/
  order : ∀ m n,m < n → due m < due n
  /-- An event takes place when it is due. -/
  onTime : ∀ t,happens t=true → due (tally happens t)=t
  /-- The next event is still to come. -/
  ahead : ∀ t,t < due (tally happens (t+1))

variable {due : ℕ → ℕ} {happens : ℕ → Bool} (h : OnSchedule due happens)

include h

/-- The tally counts the events that were due. -/
theorem OnSchedule.lt_tally (n t : ℕ) : n < tally happens t ↔ due n < t := by
  induction t with
  | zero => exact iff_of_false (Nat.not_lt_zero n) (Nat.not_lt_zero _)
  | succ t ih =>
    have hahead := h.ahead t
    change n < tally happens t+(happens t).toNat ↔ _
    change t < due (tally happens t+(happens t).toNat) at hahead
    cases hnow : happens t with
    | true =>
      have hdue := h.onTime t hnow
      change n < tally happens t+1 ↔ due n < t+1
      rw [Nat.lt_succ_iff_lt_or_eq,ih,Nat.lt_succ_iff_lt_or_eq]
      refine or_congr_right ⟨fun heq => heq ▸ hdue,fun heq => ?_⟩
      -- two events are never due in one cycle
      obtain hlt | hsame | hgt := Nat.lt_trichotomy n (tally happens t)
      · exact absurd (h.order _ _ hlt) (by omega)
      · exact hsame
      · exact absurd (h.order _ _ hgt) (by omega)
    | false =>
      rw [hnow] at hahead
      change n < tally happens t ↔ due n < t+1
      rw [ih]
      refine ⟨fun hlt => Nat.lt_succ_of_lt hlt,fun hlt => ?_⟩
      refine Decidable.byContradiction fun hnot => ?_
      have hbehind : tally happens t≤n := Nat.le_of_not_lt fun hcounted => hnot (ih.mp hcounted)
      obtain heq | hbefore := Nat.eq_or_lt_of_le hbehind
      · rw [←heq] at hlt
        exact absurd hahead (by change ¬t < due (tally happens t); omega)
      · have horder := h.order _ _ hbefore
        change t < due (tally happens t) at hahead
        omega

/-- Before event `n` exactly `n` events have taken place. -/
theorem OnSchedule.tally_due (n : ℕ) : tally happens (due n)=n := by
  have hnot : ¬n < tally happens (due n) := by
    rw [h.lt_tally]
    exact Nat.lt_irrefl _
  obtain heq | hlt := Nat.eq_or_lt_of_le (Nat.le_of_not_lt hnot)
  · exact heq
  · have hcounted := (h.lt_tally (tally happens (due n)) (due n)).mpr (h.order _ _ hlt)
    exact absurd hcounted (Nat.lt_irrefl _)

/-- A cycle has an event exactly when one is due. -/
theorem OnSchedule.happens_iff (t : ℕ) : happens t=true ↔ ∃ n,due n=t := by
  refine ⟨fun hnow => ⟨_,h.onTime t hnow⟩,?_⟩
  rintro ⟨n,rfl⟩
  have hcounted := (h.lt_tally n (due n+1)).mpr (Nat.lt_succ_self _)
  have hbefore := h.tally_due n
  rw [tally,hbefore] at hcounted
  cases hnow : happens (due n) with
  | true => rfl
  | false =>
    rw [hnow] at hcounted
    exact absurd hcounted (Nat.lt_irrefl _)

/-- Behind event `n` one event more has taken place. -/
theorem OnSchedule.tally_after (n : ℕ) : tally happens (due n+1)=n+1 := by
  rw [tally,h.tally_due,(h.happens_iff _).mpr ⟨n,rfl⟩]
  rfl

/-- Events a cycle later keep the schedule a cycle later. -/
theorem OnSchedule.shift {late : ℕ → Bool} (hzero : late 0=false)
    (hshift : ∀ t,late (t+1)=happens t) : OnSchedule (fun n => due n+1) late := by
  have htally := tally_shift hzero hshift
  refine ⟨fun m n hlt => Nat.succ_lt_succ (h.order m n hlt),?_,?_⟩
  · intro t hnow
    cases t with
    | zero =>
      rw [hzero] at hnow
      cases hnow
    | succ t =>
      rw [hshift] at hnow
      rw [htally,h.onTime t hnow]
  · intro t
    rw [htally]
    cases t with
    | zero => exact Nat.succ_pos _
    | succ t => exact Nat.succ_lt_succ (h.ahead t)

/-- Number of events of a schedule that are due before a cycle. -/
def passed (due : ℕ → ℕ) : ℕ → ℕ
  | 0 => 0
  | t+1 => passed due t+(decide (due (passed due t)=t)).toNat

omit h in
/-- The next event of a schedule is not overdue. -/
theorem le_due_passed (horder : ∀ m n,m < n → due m < due n) (t : ℕ) : t≤ due (passed due t) := by
  induction t with
  | zero => exact Nat.zero_le _
  | succ t ih =>
    have hlater := horder _ _ (Nat.lt_add_one (passed due t))
    unfold passed
    by_cases hnow : due (passed due t)=t
    · simp only [hnow,decide_true,Bool.toNat_true]
      omega
    · simp only [hnow,decide_false,Bool.toNat_false,Nat.add_zero]
      omega

omit h in
/-- Events that take place when they are due keep the schedule. -/
theorem passed_keeps (horder : ∀ m n,m < n → due m < due n) :
    OnSchedule due (fun t => decide (due (passed due t)=t)) ∧
      ∀ t,tally (fun t => decide (due (passed due t)=t)) t=passed due t := by
  have htally : ∀ t,tally (fun t => decide (due (passed due t)=t)) t=passed due t := by
    intro t
    induction t with
    | zero => rfl
    | succ t ih => rw [tally,passed,ih]
  refine ⟨⟨horder,fun t hnow => ?_,fun t => ?_⟩,htally⟩
  · rw [htally]
    exact of_decide_eq_true hnow
  · rw [htally]
    exact le_due_passed horder (t+1)

omit h in
/-- The events that have passed are those due earlier. -/
theorem lt_passed (horder : ∀ m n,m < n → due m < due n) (n t : ℕ) :
    n < passed due t ↔ due n < t := by
  obtain ⟨hkeeps,htally⟩ := passed_keeps horder
  rw [←htally]
  exact hkeeps.lt_tally n t

omit h in
/-- The schedule a cycle later has passed as many events a cycle later. -/
theorem passed_shift (due : ℕ → ℕ) (t : ℕ) :
    passed (fun n => due n+1) (t+1)=passed due t := by
  induction t with
  | zero => rfl
  | succ t ih =>
    rw [passed,ih,passed]
    simp only [Nat.add_right_cancel_iff]

/-- A sequence begins with nothing before its first value. -/
structure First {α : Type*} (values : ℕ → Option α) (n : ℕ) (a : α) : Prop where
  /-- The value. -/
  now : values n=some a
  /-- Nothing before it. -/
  before : ∀ m < n,values m=none

omit h in
/-- Up to any point there is nothing or a first value. -/
theorem first_or_none {α : Type*} (values : ℕ → Option α) (n : ℕ) :
    values n=none ∨ ∃ a m,m≤n ∧ First values m a := by
  induction n using Nat.strongRecOn with
  | ind n ih =>
    cases hnow : values n with
    | none => exact .inl rfl
    | some a =>
      by_cases hbefore : ∀ m < n,values m=none
      · exact .inr ⟨a,n,Nat.le_refl n,hnow,hbefore⟩
      · simp only [Classical.not_forall] at hbefore
        obtain ⟨m,hm,hsome⟩ := hbefore
        obtain hnone | ⟨b,k,hk,hfirst⟩ := ih m hm
        · exact absurd hnone hsome
        · exact .inr ⟨b,k,Nat.le_trans hk (Nat.le_of_lt hm),hfirst⟩

omit h in
/-- Observations that find every change of the values find their first
value. -/
theorem first_iff_of_changes {α : Type*} {seen values : ℕ → Option α} (hzero : values 0=none)
    (hsound : ∀ t a,seen t=some a → values t=some a)
    (hchange : ∀ t,seen (t+1)=none → values (t+1)=none ∨ values (t+1)=values t) (n : ℕ) (a : α) :
    First seen n a ↔ First values n a := by
  have hquiet : ∀ n,(∀ m≤n,seen m=none) → values n=none := by
    intro n
    induction n with
    | zero => exact fun _ => hzero
    | succ n ih =>
      intro hnone
      obtain hnow | hkept := hchange n (hnone (n+1) (Nat.le_refl _))
      · exact hnow
      · rw [hkept]
        exact ih fun m hm => hnone m (Nat.le_succ_of_le hm)
  constructor
  · intro hfirst
    refine ⟨hsound n a hfirst.now,fun m hm => hquiet m fun k hk => ?_⟩
    exact hfirst.before k (Nat.lt_of_le_of_lt hk hm)
  · intro hfirst
    have hbefore : ∀ m < n,seen m=none := by
      intro m hm
      cases hseen : seen m with
      | none => rfl
      | some b =>
        have hvalue := hfirst.before m hm
        rw [hsound m b hseen] at hvalue
        cases hvalue
    refine ⟨?_,hbefore⟩
    cases hseen : seen n with
    | some b => exact (hsound n b hseen).symm.trans hfirst.now
    | none =>
      have hvalue := hquiet n fun m hm => by
        obtain heq | hlt := Nat.eq_or_lt_of_le hm
        · rw [heq]
          exact hseen
        · exact hbefore m hlt
      rw [hfirst.now] at hvalue
      cases hvalue

/-- When each event brings the next value, the first value other than the
initial one shows one cycle after its event. -/
theorem OnSchedule.first_counted {α : Type*} {seen values : ℕ → Option α}
    (hseen : ∀ t,seen t=values (tally happens t)) (hzero : values 0=none) (t : ℕ) (a : α) :
    First seen t a ↔ ∃ n,due n+1=t ∧ First values (n+1) a := by
  constructor
  · intro hfirst
    have hnow := hfirst.now
    rw [hseen] at hnow
    cases htally : tally happens t with
    | zero =>
      rw [htally,hzero] at hnow
      cases hnow
    | succ n =>
      rw [htally] at hnow
      have hdue : due n < t := (h.lt_tally n t).mp (by omega)
      have hat : due n+1=t := by
        refine Nat.le_antisymm hdue (Nat.le_of_not_lt fun hlt => ?_)
        have hnone := hfirst.before _ hlt
        rw [hseen,h.tally_after,hnow] at hnone
        cases hnone
      refine ⟨n,hat,hnow,fun m hm => ?_⟩
      cases m with
      | zero => exact hzero
      | succ m =>
        have horder := h.order m n (by omega)
        have hnone := hfirst.before (due m+1) (by omega)
        rwa [hseen,h.tally_after] at hnone
  · rintro ⟨n,rfl,hfirst⟩
    refine ⟨?_,fun u hu => ?_⟩
    · rw [hseen,h.tally_after]
      exact hfirst.now
    · rw [hseen]
      refine hfirst.before _ (Nat.lt_succ_of_le (Nat.le_of_not_lt fun hlt => ?_))
      have hdue := (h.lt_tally n u).mp hlt
      omega

end Schedules

section Polls

variable {σ α : Type*} (step : σ → σ) (observe : σ → Option α)

/-- Step until something is observed, at most for a number of cycles. -/
def poll : ℕ → σ → Option α × σ
  | 0,s => (none,s)
  | cycles+1,s =>
    match observe (step s) with
    | some a => (some a,step s)
    | none => poll cycles (step s)

variable {step observe} {state : ℕ → σ} (hnext : ∀ t,state (t+1)=step (state t))

include hnext

/-- Before the first observation a poll goes on. -/
theorem poll_from {n : ℕ} {a : α} (hfirst : First (fun t => observe (state t)) n a) {t : ℕ}
    (ht : t < n) (cycles : ℕ) :
    poll step observe cycles (state t)=
      if n≤t+cycles then (some a,state n) else (none,state (t+cycles)) := by
  induction cycles generalizing t with
  | zero =>
    rw [if_neg (by omega)]
    rfl
  | succ cycles ih =>
    rw [poll,←hnext]
    obtain heq | hlt := Nat.eq_or_lt_of_le (Nat.succ_le_of_lt ht)
    · subst heq
      rw [hfirst.now,if_pos (by omega)]
    · rw [hfirst.before _ hlt]
      dsimp only
      rw [ih hlt,Nat.succ_add_eq_add_succ]

/-- A poll returns the first observation if the cycles suffice. -/
theorem poll_first (hstart : observe (state 0)=none) {n : ℕ} {a : α}
    (hfirst : First (fun t => observe (state t)) n a) (cycles : ℕ) :
    poll step observe cycles (state 0)=
      if n≤cycles then (some a,state n) else (none,state cycles) := by
  have hpos : 0 < n := by
    refine Nat.pos_of_ne_zero fun hzero => ?_
    have hnow := hfirst.now
    rw [hzero,hstart] at hnow
    cases hnow
  have h := poll_from hnext hfirst hpos cycles
  rwa [Nat.zero_add] at h

/-- What a poll returns was the first observation. -/
theorem poll_returns (hstart : observe (state 0)=none) {cycles : ℕ} {a : α}
    (h : (poll step observe cycles (state 0)).1=some a) :
    ∃ n≤cycles,First (fun t => observe (state t)) n a := by
  have hfrom : ∀ cycles t,(poll step observe cycles (state t)).1=some a →
      (∀ m≤t,observe (state m)=none) →
      ∃ n≤t+cycles,First (fun t => observe (state t)) n a := by
    intro cycles
    induction cycles with
    | zero =>
      intro t hsome
      cases hsome
    | succ cycles ih =>
      intro t hsome hbefore
      rw [poll,←hnext] at hsome
      cases hnow : observe (state (t+1)) with
      | some b =>
        rw [hnow] at hsome
        obtain rfl := Option.some.inj hsome
        exact ⟨t+1,by omega,hnow,fun m hm => hbefore m (Nat.le_of_lt_succ hm)⟩
      | none =>
        rw [hnow] at hsome
        obtain ⟨n,hn,hfirst⟩ := ih (t+1) hsome fun m hm => by
          obtain heq | hlt := Nat.eq_or_lt_of_le hm
          · rw [heq]
            exact hnow
          · exact hbefore m (Nat.le_of_lt_succ hlt)
        exact ⟨n,by omega,hfirst⟩
  have hzero : ∀ m≤0,observe (state m)=none := by
    intro m hm
    obtain rfl := Nat.le_zero.mp hm
    exact hstart
  obtain ⟨n,hn,hfirst⟩ := hfrom cycles 0 h hzero
  exact ⟨n,by omega,hfirst⟩

/-- A poll that returns nothing has gone through all its cycles. -/
theorem poll_none {cycles t : ℕ} (h : (poll step observe cycles (state t)).1=none) :
    (poll step observe cycles (state t)).2=state (t+cycles) ∧
      ∀ m,t < m → m≤t+cycles → observe (state m)=none := by
  induction cycles generalizing t with
  | zero => exact ⟨rfl,fun m hlo hhi => absurd hhi (by omega)⟩
  | succ cycles ih =>
    rw [poll,←hnext] at h ⊢
    cases hnow : observe (state (t+1)) with
    | some b =>
      rw [hnow] at h
      cases h
    | none =>
      rw [hnow] at h
      obtain ⟨hstate,hnone⟩ := ih h
      dsimp only
      rw [hstate,Nat.succ_add_eq_add_succ]
      refine ⟨rfl,fun m hlo hhi => ?_⟩
      obtain heq | hlt := Nat.eq_or_lt_of_le (Nat.succ_le_of_lt hlo)
      · rw [←heq]
        exact hnow
      · exact hnone m hlt (by omega)

end Polls

end RichardCore.Clocked

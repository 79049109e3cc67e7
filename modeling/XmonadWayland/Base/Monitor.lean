import Mathlib.Data.List.Basic
import Mathlib.Data.List.Induction
import Mathlib.Data.List.Nodup

/-!
# XmonadWayland.Base.Monitor

Safety monitors of event logs: a partial step function that refuses an event where it
must not occur.  A monitor runs over a log from its oldest event.  Two monitors are
given, for a pair of events that must alternate and for the events of one object from
its birth to its death, with the lists they accept.  Where what an entry needs is a fact
about the whole log before it, the log is justified entry by entry.
-/

namespace XmonadWayland

variable {σ ε ρ α : Type}

/-- The state after the log, if the monitor accepts it. -/
def runMonitor (m : σ → ε → Option σ) (s : σ) (log : List ε) : Option σ := log.foldlM m s

section Run

variable {m : σ → ε → Option σ} {s : σ}

@[simp] theorem runMonitor_nil : runMonitor m s [] = some s := rfl

/-- The first event is judged in the first state, the others in the one it leads to. -/
theorem runMonitor_cons (e : ε) (log : List ε) :
    runMonitor m s (e :: log) = (m s e).bind fun t => runMonitor m t log := rfl

theorem runMonitor_singleton (e : ε) : runMonitor m s [e] = m s e := by
  rw [runMonitor_cons]
  cases m s e <;> rfl

/-- A longer log is judged from where the shorter one led. -/
theorem runMonitor_append (log log' : List ε) :
    runMonitor m s (log ++ log') = (runMonitor m s log).bind fun t => runMonitor m t log' := by
  rw [runMonitor, List.foldlM_append]
  rfl

/-- One more event is judged in the state reached. -/
theorem runMonitor_concat {t : σ} {log : List ε} (h : runMonitor m s log = some t) (e : ε) :
    runMonitor m s (log ++ [e]) = m t e := by
  rw [runMonitor_append, h, Option.bind_some, runMonitor_singleton]

/-- The last step. -/
theorem runMonitor_snoc {t : σ} {log : List ε} {e : ε} (h : runMonitor m s (log ++ [e]) = some t) :
    ∃ r, runMonitor m s log = some r ∧ m r e = some t := by
  rw [runMonitor_append] at h
  obtain ⟨r, hr, hstep⟩ := Option.bind_eq_some_iff.mp h
  exact ⟨r, hr, (runMonitor_singleton e).symm.trans hstep⟩

/-- Events that leave the monitor where it is. -/
theorem runMonitor_of_fixed {log : List ε} (h : ∀ e ∈ log, m s e = some s) :
    runMonitor m s log = some s := by
  induction log with
  | nil => rfl
  | cons e log ih =>
      rw [runMonitor_cons, h e List.mem_cons_self, Option.bind_some]
      exact ih fun e' he' => h e' (List.mem_cons_of_mem e he')

/-- Events the monitor ignores do not move it. -/
theorem runMonitor_of_ignored {log : List ε} (h : ∀ e ∈ log, ∀ t, m t e = some t) :
    runMonitor m s log = some s := runMonitor_of_fixed fun e he => h e he s

/-- Of the events of several records only those of one are left. -/
theorem runMonitor_flatMap_of_mem {recs : List ρ} {f : ρ → List ε} {r : ρ} (hnd : recs.Nodup)
    (hr : r ∈ recs) (hother : ∀ r' ∈ recs, r' ≠ r → ∀ e ∈ f r', ∀ t, m t e = some t) :
    runMonitor m s (recs.flatMap f) = runMonitor m s (f r) := by
  induction recs generalizing s with
  | nil => contradiction
  | cons r' recs ih =>
      rw [List.nodup_cons] at hnd
      rw [List.flatMap_cons, runMonitor_append]
      by_cases h : r' = r
      · subst h
        have hrest : ∀ t, runMonitor m t (recs.flatMap f) = some t := by
          refine fun t => runMonitor_of_ignored fun e he => ?_
          obtain ⟨r, hmem, he⟩ := List.mem_flatMap.mp he
          exact hother r (List.mem_cons_of_mem _ hmem) (fun heq => hnd.1 (heq ▸ hmem)) e he
        simp only [hrest]
        cases runMonitor m s (f r') <;> rfl
      · have hskip : runMonitor m s (f r') = some s :=
          runMonitor_of_ignored (hother r' List.mem_cons_self h)
        rw [hskip, Option.bind_some]
        exact ih hnd.2 ((List.mem_cons.mp hr).resolve_left (Ne.symm h))
          fun r'' hr'' => hother r'' (List.mem_cons_of_mem _ hr'')

/-- Records with different keys, of which only the one with the key `i` is watched. -/
theorem runMonitor_flatMap_keyed {κ : Type} {key : ρ → κ} {recs : List ρ} {f : ρ → List ε} {i : κ}
    (hnd : (recs.map key).Nodup)
    (hother : ∀ r ∈ recs, key r ≠ i → ∀ e ∈ f r, ∀ t, m t e = some t) :
    (∃ r ∈ recs, key r = i ∧ runMonitor m s (recs.flatMap f) = runMonitor m s (f r))
      ∨ (∀ r ∈ recs, key r ≠ i) ∧ runMonitor m s (recs.flatMap f) = some s := by
  by_cases h : ∃ r ∈ recs, key r = i
  · obtain ⟨r, hr, hkey⟩ := h
    refine Or.inl ⟨r, hr, hkey, runMonitor_flatMap_of_mem hnd.of_map hr fun r' hr' hne => ?_⟩
    exact hother r' hr' fun hkey' =>
      hne (List.inj_on_of_nodup_map hnd hr' hr (hkey'.trans hkey.symm))
  · have hnone : ∀ r ∈ recs, key r ≠ i := fun r hr hkey => h ⟨r, hr, hkey⟩
    refine Or.inr ⟨hnone, runMonitor_of_ignored fun e he => ?_⟩
    obtain ⟨r, hr, he⟩ := List.mem_flatMap.mp he
    exact hother r hr (hnone r hr) e he

end Run

/-! ## Logs that grow

The log of a run over inputs, where the monitor's state after a part of the run tells
which inputs keep the log acceptable. -/

section Growing

variable {γ : Type} {m : σ → ε → Option σ} {s : σ} (log : List γ → List ε)
  {I : List γ → σ → Prop} {P : γ → Prop} {good : List γ → γ → Prop}

/-- Good inputs keep the log acceptable. -/
theorem runMonitor_of_good (hnil : ∃ t, runMonitor m s (log []) = some t ∧ I [] t)
    (hgood : ∀ inputs c t, P c → runMonitor m s (log inputs) = some t → I inputs t →
      good inputs c → ∃ t', runMonitor m s (log (inputs ++ [c])) = some t' ∧ I (inputs ++ [c]) t')
    (inputs : List γ) (hP : ∀ c ∈ inputs, P c)
    (h : ∀ earlier c later, inputs = earlier ++ c :: later → good earlier c) :
    ∃ t, runMonitor m s (log inputs) = some t ∧ I inputs t := by
  induction inputs using List.reverseRecOn with
  | nil => exact hnil
  | append_singleton inputs c ih =>
      have hbefore := fun c' hc' => hP c' (List.mem_append_left _ hc')
      obtain ⟨t, ht, hI⟩ := ih hbefore fun earlier c' later heq =>
        h earlier c' (later ++ [c]) (by simp [heq])
      have hc : P c := hP c (List.mem_append_right _ (List.mem_singleton_self c))
      exact hgood inputs c t hc ht hI (h inputs c [] rfl)

/-- If a bad input is refused at once, an acceptable log comes from good inputs. -/
theorem good_of_runMonitor (hnil : ∃ t, runMonitor m s (log []) = some t ∧ I [] t)
    (hgrow : ∀ inputs c, log inputs <+: log (inputs ++ [c]))
    (hgood : ∀ inputs c t, P c → runMonitor m s (log inputs) = some t → I inputs t →
      good inputs c → ∃ t', runMonitor m s (log (inputs ++ [c])) = some t' ∧ I (inputs ++ [c]) t')
    (hbad : ∀ inputs c t, P c → runMonitor m s (log inputs) = some t → I inputs t →
      ¬good inputs c → runMonitor m s (log (inputs ++ [c])) = none)
    (inputs : List γ) (hP : ∀ c ∈ inputs, P c) (h : (runMonitor m s (log inputs)).isSome) :
    ∀ earlier c later, inputs = earlier ++ c :: later → good earlier c := by
  induction inputs using List.reverseRecOn with
  | nil => simp
  | append_singleton inputs c ih =>
      have hbefore : (runMonitor m s (log inputs)).isSome := by
        obtain ⟨extra, hextra⟩ := hgrow inputs c
        rw [← hextra, runMonitor_append] at h
        obtain ⟨t, ht⟩ := Option.isSome_iff_exists.mp h
        obtain ⟨t', ht', -⟩ := Option.bind_eq_some_iff.mp ht
        exact Option.isSome_iff_exists.mpr ⟨t', ht'⟩
      have hinputs := fun c' hc' => hP c' (List.mem_append_left _ hc')
      have hall := ih hinputs hbefore
      intro earlier c' later heq
      rcases List.eq_nil_or_concat later with rfl | ⟨later, c'', rfl⟩
      · obtain ⟨rfl, hc⟩ := List.append_inj' heq rfl
        obtain rfl := (List.cons.inj hc).1
        obtain ⟨t, ht, hI⟩ := runMonitor_of_good log hnil hgood inputs hinputs hall
        by_contra hbadc
        rw [hbad inputs c t (hP c (List.mem_append_right _ (List.mem_singleton_self c))) ht hI
          hbadc] at h
        contradiction
      · rw [List.concat_eq_append, ← List.cons_append, ← List.append_assoc] at heq
        exact hall earlier c' later (List.append_inj' heq rfl).1

end Growing

/-! ## Alternation -/

/-- The list `a, b, a, …` of length `n`. -/
def alternating (a b : ε) : Nat → List ε
  | 0 => []
  | n + 1 => alternating a b n ++ [if n % 2 = 0 then a else b]

section Toggle

variable [DecidableEq ε]

/-- Accepts logs in which `start` and `stop` alternate, `start` first. -/
def toggle (start stop : ε) (held : Bool) (e : ε) : Option Bool :=
  if e = start then if held then none else some true
  else if e = stop then if held then some false else none
  else some held

/-- Other events do not toggle. -/
theorem toggle_of_ne {start stop e : ε} (h : e ≠ start) (h' : e ≠ stop) (held : Bool) :
    toggle start stop held e = some held := by
  rw [toggle, if_neg h, if_neg h']

/-- The accepted logs, and what the state means. -/
theorem alternates_of_toggle {start stop : ε} (hne : start ≠ stop) {log : List ε} {held : Bool}
    (h : runMonitor (toggle start stop) false log = some held) :
    ∃ n, log.filter (fun e => e = start ∨ e = stop) = alternating start stop n
      ∧ (held = true ↔ n % 2 = 1) := by
  induction log using List.reverseRecOn generalizing held with
  | nil => exact ⟨0, rfl, by simp [runMonitor] at h; simp [← h]⟩
  | append_singleton log e ih =>
      obtain ⟨t, ht, hu⟩ := runMonitor_snoc h
      obtain ⟨n, hn, hparity⟩ := ih ht
      rw [List.filter_append, hn]
      unfold toggle at hu
      split at hu
      · next he =>
        subst he
        split at hu
        · contradiction
        · next hfree =>
          have heven : n % 2 = 0 := by
            have := mt hparity.mpr hfree
            omega
          refine ⟨n + 1, by simp [alternating, heven], ?_⟩
          rw [← Option.some.inj hu]
          simp
          omega
      · next he =>
        split at hu
        · next he' =>
          subst he'
          split at hu
          · next hheld =>
            have hodd : n % 2 = 1 := hparity.mp hheld
            refine ⟨n + 1, by simp [alternating, hodd], ?_⟩
            rw [← Option.some.inj hu]
            simp
            omega
          · contradiction
        · next he' => exact ⟨n, by simp [he, he'], by rw [← Option.some.inj hu]; exact hparity⟩

/-- What is let go was stopped. -/
theorem mem_of_toggle_released {start stop : ε} {log : List ε}
    (h : runMonitor (toggle start stop) true log = some false) : stop ∈ log := by
  by_contra hno
  have hkept : ∀ (log : List ε) (held : Bool), stop ∉ log →
      runMonitor (toggle start stop) true log = some held → held = true := by
    intro log
    induction log with
    | nil => exact fun held _ hrun => (Option.some.inj hrun).symm
    | cons e log ih =>
        intro held hmem hrun
        rw [runMonitor_cons] at hrun
        obtain ⟨t, ht, hrest⟩ := Option.bind_eq_some_iff.mp hrun
        have hstop : e ≠ stop := fun he => hmem (he ▸ List.mem_cons_self)
        rw [toggle, if_neg hstop] at ht
        split at ht
        · contradiction
        · obtain rfl := Option.some.inj ht
          exact ih held (fun hm => hmem (List.mem_cons_of_mem e hm)) hrest
  exact absurd (hkept log false hno h) nofun

end Toggle

/-! ## Lifespans -/

/-- Where an object is in its life; a live one has a value. -/
inductive Lifespan (α : Type) where
  | unborn
  | alive (value : α)
  | dead

/-- The value of a live object. -/
def Lifespan.value : Lifespan α → Option α
  | alive value => some value
  | _ => none

namespace Lifespan

variable {value : α}

theorem alive_ne_unborn : alive value ≠ unborn := by
  intro h
  cases h

theorem alive_ne_dead : alive value ≠ dead := by
  intro h
  cases h

theorem unborn_ne_dead : (unborn : Lifespan α) ≠ dead := by
  intro h
  cases h

end Lifespan

/-- What an event means to an object: it gives birth, it sets the value of a live or
unborn object, it needs a live one, it kills, or it is about something else. -/
inductive Role (α : Type) where
  | opens (value : α)
  | sets (value : α)
  | uses
  | closes
  | other

/-- Accepts the logs in which the object's events come in order of its life. -/
def live (role : ε → Role α) (phase : Lifespan α) (e : ε) : Option (Lifespan α) :=
  match role e, phase with
  | .opens value, .unborn => some (.alive value)
  | .sets value, .unborn => some (.alive value)
  | .sets value, .alive _ => some (.alive value)
  | .uses, .alive value => some (.alive value)
  | .closes, .alive _ => some .dead
  | .other, phase => some phase
  | _, _ => none

section Steps

variable {role : ε → Role α} {e : ε} {phase phase' : Lifespan α} {value : α}

/-- Other events leave the phase as it is. -/
theorem live_of_other (h : role e = .other) (phase : Lifespan α) :
    live role phase e = some phase := by
  unfold live
  rw [h]

/-- A life begins once, with its value. -/
theorem live_of_opens (h : role e = .opens value) :
    live role phase e = some phase' ↔ phase = .unborn ∧ phase' = .alive value := by
  unfold live
  rw [h]
  cases phase <;> simp [eq_comm]

/-- A value is set as long as the life has not ended. -/
theorem live_of_sets (h : role e = .sets value) :
    live role phase e = some phase' ↔ phase ≠ .dead ∧ phase' = .alive value := by
  unfold live
  rw [h]
  cases phase <;> simp [eq_comm]

/-- Only what is alive can be used. -/
theorem live_of_uses (h : role e = .uses) :
    live role phase e = some phase' ↔ (∃ value, phase = .alive value) ∧ phase' = phase := by
  unfold live
  rw [h]
  cases phase <;> simp [eq_comm]

/-- A use changes nothing, as do events of others. -/
theorem eq_of_live (h : role e = .uses ∨ role e = .other)
    (hstep : live role phase e = some phase') : phase' = phase := by
  rcases h with h | h
  · exact ((live_of_uses h).mp hstep).2
  · exact (Option.some.inj ((live_of_other h phase).symm.trans hstep)).symm

/-- Only what is alive can end. -/
theorem live_of_closes (h : role e = .closes) :
    live role phase e = some phase' ↔ (∃ value, phase = .alive value) ∧ phase' = .dead := by
  unfold live
  rw [h]
  cases phase <;> simp [eq_comm]

end Steps

/-- Is the event about the object? -/
def Role.matters : Role α → Bool
  | .other => false
  | _ => true

/-- A birth, events in between, at most one death. -/
structure Lives (role : ε → Role α) (first : ε) (middle : List ε) (last : Option ε) : Prop where
  first : (∃ value, role first = .opens value) ∨ ∃ value, role first = .sets value
  middle : ∀ e ∈ middle, role e = .uses ∨ ∃ value, role e = .sets value
  last : ∀ e ∈ last, role e = .closes

/-- A life that goes on can be used, or get another value. -/
theorem Lives.snoc {role : ε → Role α} {first : ε} {middle : List ε} {e : ε}
    (h : Lives role first middle none) (he : role e = .uses ∨ ∃ value, role e = .sets value) :
    Lives role first (middle ++ [e]) none := by
  refine ⟨h.first, fun e' he' => ?_, nofun⟩
  rcases List.mem_append.mp he' with hm | hm
  · exact h.middle e' hm
  · rw [List.mem_singleton.mp hm]
    exact he

/-- The events about an object at some point of its life. -/
def Lived (role : ε → Role α) (events : List ε) : Lifespan α → Prop
  | .unborn => events = []
  | .alive _ => ∃ first middle, events = first :: middle ∧ Lives role first middle none
  | .dead => ∃ first middle last, events = first :: (middle ++ [last])
      ∧ Lives role first middle (some last)

/-- The accepted logs. -/
theorem lived_of_live {role : ε → Role α} {log : List ε} {phase : Lifespan α}
    (h : runMonitor (live role) .unborn log = some phase) :
    Lived role (log.filter fun e => (role e).matters) phase := by
  induction log using List.reverseRecOn generalizing phase with
  | nil =>
      obtain rfl : Lifespan.unborn = phase := Option.some.inj h
      rfl
  | append_singleton log e ih =>
      obtain ⟨before, hbefore, hstep⟩ := runMonitor_snoc h
      have hlog := ih hbefore
      rw [List.filter_append]
      have hone : (role e).matters = true → [e].filter (fun e => (role e).matters) = [e] :=
        fun hm => List.filter_cons_of_pos hm
      cases hrole : role e with
      | other =>
          rw [live_of_other hrole, Option.some.injEq] at hstep
          have hnone : [e].filter (fun e => (role e).matters) = [] := by
            simp [hrole, Role.matters]
          rwa [hnone, List.append_nil, ← hstep]
      | opens value =>
          obtain ⟨rfl, rfl⟩ := (live_of_opens hrole).mp hstep
          refine ⟨e, [], ?_, Or.inl ⟨value, hrole⟩, nofun, nofun⟩
          rw [hlog, hone (by rw [hrole]; rfl)]
          rfl
      | sets value =>
          obtain ⟨hdead, rfl⟩ := (live_of_sets hrole).mp hstep
          rw [hone (by rw [hrole]; rfl)]
          cases before with
          | unborn =>
              refine ⟨e, [], ?_, Or.inr ⟨value, hrole⟩, nofun, nofun⟩
              rw [hlog]
              rfl
          | alive old =>
              obtain ⟨first, middle, heq, hlives⟩ := hlog
              exact ⟨first, middle ++ [e], by rw [heq]; rfl, hlives.snoc (Or.inr ⟨value, hrole⟩)⟩
          | dead => contradiction
      | uses =>
          obtain ⟨⟨value, rfl⟩, rfl⟩ := (live_of_uses hrole).mp hstep
          obtain ⟨first, middle, heq, hlives⟩ := hlog
          rw [hone (by rw [hrole]; rfl)]
          exact ⟨first, middle ++ [e], by rw [heq]; rfl, hlives.snoc (Or.inl hrole)⟩
      | closes =>
          obtain ⟨⟨value, rfl⟩, rfl⟩ := (live_of_closes hrole).mp hstep
          obtain ⟨first, middle, heq, hlives⟩ := hlog
          rw [hone (by rw [hrole]; rfl)]
          refine ⟨first, middle, e, by rw [heq]; rfl, hlives.first, hlives.middle, fun c hc => ?_⟩
          rw [Option.mem_some_iff] at hc
          exact hc ▸ hrole

/-! ## Entries allowed by what came before -/

/-- Every entry of the log is allowed after those before it. -/
def Justified (allowed : List ε → ε → Prop) (log : List ε) : Prop :=
  ∀ pre e post, log = pre ++ e :: post → allowed pre e

section Justified

variable {allowed : List ε → ε → Prop} {log : List ε}

theorem justified_nil : Justified allowed [] := fun pre e post h => by simp at h

/-- One more event that is allowed keeps a log justified. -/
theorem Justified.concat (h : Justified allowed log) {e : ε} (he : allowed log e) :
    Justified allowed (log ++ [e]) := by
  intro pre e' post heq
  rcases List.eq_nil_or_concat post with rfl | ⟨post', last, rfl⟩
  · obtain ⟨rfl, hlast⟩ := List.append_inj' heq rfl
    exact List.singleton_inj.mp hlast ▸ he
  · have hsplit : log ++ [e] = (pre ++ e' :: post') ++ [last] := by simpa using heq
    exact h pre e' post' (List.append_inj' hsplit rfl).1

/-- Entries that are always allowed. -/
theorem Justified.append_free (h : Justified allowed log) {entries : List ε}
    (hfree : ∀ e ∈ entries, ∀ pre, allowed pre e) : Justified allowed (log ++ entries) := by
  induction entries generalizing log with
  | nil => rwa [List.append_nil]
  | cons e entries ih =>
      rw [List.append_cons]
      exact ih (h.concat (hfree e List.mem_cons_self log))
        fun e' he' => hfree e' (List.mem_cons_of_mem e he')

end Justified

end XmonadWayland

import XmonadWayland.Policy.Mode

/-!
# XmonadWayland.Policy.Relayout

Cycling through the layouts.  `NextLayout` looks the current kind up in the configured
cycle, written twice, and takes the kind behind it; so within the cycle the kinds go round.
A kind outside the cycle is not found and stays: `SetLayout`, the Sway actions, the initial
layout and a reload of another cycle may all leave the workspace there.
-/

namespace XmonadWayland

open StackSet

/-! ## The next kind -/

section NextKind

variable {choices : List Layout} {kind : Layout}

/-- The cycle, written twice, from a kind of it on. -/
theorem dropWhile_twice {i : Nat} (hnd : choices.Nodup) (h : choices[i]? = some kind) :
    (choices ++ choices).dropWhile (fun other => other ≠ kind)
      = kind :: (choices.drop (i + 1) ++ choices) := by
  obtain ⟨hlt, rfl⟩ := List.getElem?_eq_some_iff.mp h
  have hsplit : choices ++ choices
      = choices.take i ++ choices[i] :: (choices.drop (i + 1) ++ choices) := by
    rw [← List.cons_append, List.getElem_cons_drop, ← List.append_assoc, List.take_append_drop]
  have hbefore : ∀ other ∈ choices.take i, decide (other ≠ choices[i]) = true := by
    intro other hother
    obtain ⟨j, hj, rfl⟩ := List.getElem_of_mem hother
    rw [List.length_take] at hj
    rw [List.getElem_take, decide_eq_true_eq]
    exact fun heq => absurd ((List.Nodup.getElem_inj_iff hnd).mp heq) (by omega)
  rw [hsplit, List.dropWhile_append_of_pos hbefore, List.dropWhile_cons_of_neg (by simp)]

/-- A kind of the cycle is followed by the next one, the last by the first. -/
theorem nextLayoutKind_getElem? {i : Nat} (hnd : choices.Nodup) (h : choices[i]? = some kind) :
    choices[(i + 1) % choices.length]? = some (nextLayoutKind choices kind) := by
  obtain ⟨hlt, -⟩ := List.getElem?_eq_some_iff.mp h
  have hnext : (choices.drop (i + 1) ++ choices).head? = some (nextLayoutKind choices kind) := by
    rw [nextLayoutKind, dropWhile_twice hnd h]
    have hne : choices.drop (i + 1) ++ choices ≠ [] := by
      simp [List.ne_nil_of_length_pos (Nat.zero_lt_of_lt hlt)]
    obtain ⟨next, rest, heq⟩ := List.exists_cons_of_ne_nil hne
    rw [heq]
    rfl
  rw [← hnext, List.head?_append, List.head?_drop]
  by_cases hlast : i + 1 < choices.length
  · rw [Nat.mod_eq_of_lt hlast, List.getElem?_eq_getElem hlast, Option.some_or]
  · have hlen : i + 1 = choices.length := by omega
    rw [hlen, Nat.mod_self, List.getElem?_eq_none (Nat.le_refl _), Option.none_or, List.head?_eq_getElem?]

/-- A kind outside the cycle stays. -/
theorem nextLayoutKind_of_not_mem (h : kind ∉ choices) : nextLayoutKind choices kind = kind := by
  have hnone : (choices ++ choices).dropWhile (fun other => other ≠ kind) = [] := by
    rw [← List.append_nil (choices ++ choices), List.dropWhile_append_of_pos, List.dropWhile_nil]
    intro other hother
    have hmem : other ∈ choices := by simpa using hother
    exact decide_eq_true fun heq => h (heq ▸ hmem)
  rw [nextLayoutKind, hnone]

/-- `n` steps in the cycle. -/
theorem iterate_nextLayoutKind {i : Nat} (hnd : choices.Nodup) (h : choices[i]? = some kind) (n : Nat) :
    choices[(i + n) % choices.length]? = some ((nextLayoutKind choices)^[n] kind) := by
  induction n with
  | zero =>
      rw [Nat.add_zero, Nat.mod_eq_of_lt (List.getElem?_eq_some_iff.mp h).1]
      exact h
  | succ n ih =>
      have hnext := nextLayoutKind_getElem? hnd ih
      rw [Nat.mod_add_mod] at hnext
      rw [Function.iterate_succ_apply']
      exact hnext

end NextKind

/-! ## Repetition -/

/-- The kind of the current workspace's layout. -/
def currentKind (p : Policy) : Layout := p.windowSet.current.workspace.layout.layoutKind

/-- The policy after `n` times the next layout. -/
def relaid (cfg : Config) (p : Policy) : Nat → Policy
  | 0 => p
  | n + 1 => step cfg (relaid cfg p n) (.actionRequested .nextLayout)

/-- Another kind for the layout of the current workspace. -/
def rekind (f : Layout → Layout) (s : WindowSet) : WindowSet :=
  changeLayout (fun l => { l with layoutKind := f l.layoutKind }) s

section Rekind

variable {f g : Layout → Layout} {s : WindowSet}

/-- The current layout changes. -/
theorem current_rekind : (rekind f s).current.workspace.layout.layoutKind
    = f s.current.workspace.layout.layoutKind := by
  rw [rekind, current_changeLayout]

theorem currentTag_rekind : (rekind f s).currentTag = s.currentTag := by
  rw [currentTag, rekind, current_changeLayout, currentTag]

theorem rekind_id (s : WindowSet) : rekind id s = s := by
  simp [rekind, changeLayout, mapWorkspace]

/-- Two changes of the layout are one. -/
theorem rekind_rekind : rekind f (rekind g s) = rekind (f ∘ g) s := by
  have htag : (rekind g s).currentTag = s.currentTag := currentTag_rekind
  rw [rekind, changeLayout, htag, rekind, changeLayout, mapWorkspace_mapWorkspace, rekind, changeLayout]
  refine mapWorkspace_congr fun w _ => ?_
  by_cases h : w.tag = s.currentTag <;> simp [h]

/-- The other workspaces stay. -/
theorem mem_workspaces_rekind {w : Workspace WorkspaceId LayoutState WindowId}
    (hw : w ∈ (rekind f s).workspaces) (htag : w.tag ≠ s.currentTag) : w ∈ s.workspaces := by
  rw [rekind, changeLayout, workspaces_mapWorkspace] at hw
  obtain ⟨v, hv, rfl⟩ := List.mem_map.mp hw
  split at htag
  · next h => exact absurd h htag
  · next h => rwa [if_neg h]

end Rekind

/-- Relaying leaves the session open. -/
theorem open_relaid (cfg : Config) {p : Policy} (h : Open p) (n : Nat) : Open (relaid cfg p n) := by
  induction n with
  | zero => exact h
  | succ n ih => exact ih.step cfg rfl

/-- The kind runs through the cycle, and nothing else changes. -/
theorem windowSet_relaid (cfg : Config) {p : Policy} (h : Open p) (n : Nat) :
    (relaid cfg p n).windowSet = rekind (nextLayoutKind cfg.layoutCycle)^[n] p.windowSet := by
  induction n with
  | zero => exact (rekind_id p.windowSet).symm
  | succ n ih =>
      have hset : (relaid cfg p (n + 1)).windowSet
          = rekind (nextLayoutKind cfg.layoutCycle) (relaid cfg p n).windowSet :=
        windowSet_step_action cfg .nextLayout (open_relaid cfg h n)
      rw [hset, ih, rekind_rekind, Function.iterate_succ']

/-- The layout after some steps. -/
theorem currentKind_relaid (cfg : Config) {p : Policy} (h : Open p) (n : Nat) :
    currentKind (relaid cfg p n) = (nextLayoutKind cfg.layoutCycle)^[n] (currentKind p) := by
  rw [currentKind, windowSet_relaid cfg h, current_rekind, currentKind]

/-! ## Through the whole cycle -/

/-- The next layout is another one of the cycle, repetition visits all of it, and the other
workspaces stay as they are. -/
structure LayoutCycles (cfg : Config) (p : Policy) : Prop where
  member : currentKind (relaid cfg p 1) ∈ cfg.layoutCycle
  changes : currentKind (relaid cfg p 1) ≠ currentKind p
  visits : ∀ kind ∈ cfg.layoutCycle,
    kind ∈ (List.range cfg.layoutCycle.length).map fun k => currentKind (relaid cfg p (k + 1))
  others : ∀ n, ∀ w ∈ (relaid cfg p n).windowSet.workspaces,
    w.tag ≠ p.windowSet.currentTag → w ∈ p.windowSet.workspaces

/-- An accepted cycle has no duplicates. -/
theorem layoutCycle_of_validateConfig {cfg : Config} (h : validateConfig cfg = .ok ()) :
    cfg.layoutCycle.Nodup := by
  unfold validateConfig at h
  simp only at h
  split at h
  · contradiction
  · split at h
    · contradiction
    · next hchoices =>
      rw [not_or, not_not] at hchoices
      exact hchoices.2 ▸ nodup_eraseDups _

/-- The configuration of a reachable policy was accepted. -/
theorem accepted_of_reachable {cfg : Config} {p : Policy} (h : Reachable cfg p) :
    validateConfig cfg = .ok () := by
  induction h with
  | initial hcfg => exact hcfg
  | event ev _ ih => exact ih
  | reload _ hcfg _ _ => exact hcfg

/-- **Cycling through the layouts** works exactly from the layouts of the cycle.  Outside them the
layout stays, however often the action is repeated. -/
theorem next_layout_iff {cfg : Config} {p : Policy} (h : Reachable cfg p) (hopen : Open p)
    (hmany : 2 ≤ cfg.layoutCycle.length) :
    (LayoutCycles cfg p ↔ currentKind p ∈ cfg.layoutCycle)
      ∧ (currentKind p ∉ cfg.layoutCycle → ∀ n, currentKind (relaid cfg p n) = currentKind p) := by
  have hnd := layoutCycle_of_validateConfig (accepted_of_reachable h)
  have hkind := currentKind_relaid cfg hopen
  refine ⟨⟨fun hcycles => ?_, fun hmem => ?_⟩, fun hout n => ?_⟩
  · -- A kind that is not found stays, which is no change.
    by_contra hout
    refine hcycles.changes ?_
    rw [hkind 1]
    exact nextLayoutKind_of_not_mem hout
  · obtain ⟨i, hi⟩ := List.mem_iff_getElem?.mp hmem
    have hlt := (List.getElem?_eq_some_iff.mp hi).1
    have hrun : ∀ n, cfg.layoutCycle[(i + n) % cfg.layoutCycle.length]?
        = some (currentKind (relaid cfg p n)) := fun n => (hkind n).symm ▸ iterate_nextLayoutKind hnd hi n
    refine ⟨List.mem_of_getElem? (hrun 1), fun heq => ?_, fun kind hkind => ?_, fun n w hw htag => ?_⟩
    · have hsame := (List.getElem?_inj hlt hnd).mp ((hi.trans (congrArg some heq.symm)).trans (hrun 1).symm)
      by_cases hlast : i + 1 < cfg.layoutCycle.length
      · rw [Nat.mod_eq_of_lt hlast] at hsame
        omega
      · have hlen : i + 1 = cfg.layoutCycle.length := by omega
        rw [hlen, Nat.mod_self] at hsame
        omega
    · -- The steps from the kind at `i` to the one at `j`, once around if it lies before.
      obtain ⟨j, hj⟩ := List.mem_iff_getElem?.mp hkind
      have hjlt := (List.getElem?_eq_some_iff.mp hj).1
      obtain ⟨k, hk, hturn⟩ : ∃ k < cfg.layoutCycle.length,
          (i + (k + 1)) % cfg.layoutCycle.length = j := by
        by_cases hij : i < j
        · refine ⟨j - i - 1, by omega, ?_⟩
          rw [show i + (j - i - 1 + 1) = j by omega, Nat.mod_eq_of_lt hjlt]
        · refine ⟨j + cfg.layoutCycle.length - i - 1, by omega, ?_⟩
          rw [show i + (j + cfg.layoutCycle.length - i - 1 + 1) = j + cfg.layoutCycle.length by omega,
            Nat.add_mod_right, Nat.mod_eq_of_lt hjlt]
      refine List.mem_map.mpr ⟨k, List.mem_range.mpr hk, Option.some.inj ?_⟩
      rw [← hrun (k + 1), hturn, hj]
    · rw [windowSet_relaid cfg hopen] at hw
      exact mem_workspaces_rekind hw htag
  · rw [hkind n]
    exact Function.iterate_fixed (nextLayoutKind_of_not_mem hout) n

/-- The default cycle, entered by a workspace that starts outside of it. -/
def tabbedConfig : Config := { defaultConfig with initialLayout := .tabbed }

/-- The configuration is accepted, and the first workspace never leaves its layout. -/
theorem next_layout_stuck : validateConfig tabbedConfig = .ok () ∧ 2 ≤ tabbedConfig.layoutCycle.length
    ∧ Reachable tabbedConfig (initialPolicy tabbedConfig) ∧ Open (initialPolicy tabbedConfig)
    ∧ ¬LayoutCycles tabbedConfig (initialPolicy tabbedConfig) := by
  have haccepted : validateConfig tabbedConfig = .ok () := by
    decide +kernel
  refine ⟨haccepted, by decide, .initial haccepted, ⟨by decide +kernel, by decide +kernel⟩, ?_⟩
  have hstays : currentKind (relaid tabbedConfig (initialPolicy tabbedConfig) 1)
      = currentKind (initialPolicy tabbedConfig) := by
    decide +kernel
  exact fun hcycles => hcycles.changes hstays

/-- The last layout of the cycle is chosen by name: the cycle goes on from there. -/
theorem next_layout_default : LayoutCycles defaultConfig (runEvents defaultConfig
    [.outputUpsert 1 ⟨0, 0, 800, 600⟩, .windowAdded 1, .actionRequested (.setLayout .full)]
    (initialPolicy defaultConfig)) := by
  refine ((next_layout_iff (reachable_runEvents validateConfig_defaultConfig _) ⟨?_, ?_⟩
    (by decide)).1).mpr ?_
  · decide +kernel
  · decide +kernel
  · decide +kernel

end XmonadWayland

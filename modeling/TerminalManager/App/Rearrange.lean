import Mathlib.Data.List.Nodup
import TerminalManager.App.Boot
import TerminalManager.App.PaneIds

/-!
# Rearranging loses no pane

* `Op.rearranges`      the operations that move the panes and the focus, split a pane or open a tab;
* `minted`             the pane that a step brings: the old `nextId`, when it splits or opens;
* `KeepsPanes`         the steps that lose no pane;
* `panes_conserved`    the panes after a run: those before it, and those that its steps bring.
-/

namespace TerminalManager.App
open Ui (F32)
open Transition
open scoped List

/-- the operations that close and kill nothing -/
def Op.rearranges : Op → Bool
  | .addTab _ | .addWorktreeTab _ _ | .addEditorTab _ | .addFlowTab _ | .addAgentTab _ _ | .splitRight _ _
  | .splitDown _ _ | .focusLeft | .focusRight | .focusUp | .focusDown | .focusPane _ _ | .extract _ _
  | .reorder _ _ | .moveToEdge _ _ _ | .swap _ _ | .swapFromTab _ _ | .switchTab _ | .switchWorkspace _ => true
  | .dropSplit _ _ edge => edge ≠ .center
  | _ => false

namespace AppState
section
variable {F : Type}

/-- the pane that the step brings, if any -/
def minted (s : AppState F) : Op → List PaneId
  | .addTab _ | .addWorktreeTab _ _ | .addEditorTab _ | .addFlowTab _ | .addAgentTab _ _ => [s.nextId]
  | .splitRight target _ => if s.canSplitRight target then [s.nextId] else []
  | .splitDown target _ => if s.canSplitDown target then [s.nextId] else []
  | _ => []

/-- the steps that lose no pane: the pane that is brought is a new one, and the tab that is active after a
move in the strip is the one that was active before -/
def KeepsPanes (s : AppState F) (op : Op) : Prop :=
  s.activeWorkspace < s.workspaces.length ∧ (∀ id ∈ s.minted op, id ∉ s.paneIds) ∧
    match op with
    | .reorder _ _ => s.SoleActive
    | .focusPane workspaceIdx target => s.FocusStored workspaceIdx target
    | _ => True

lemma Shape.seated {s : AppState F} (hs : s.Shape) (h : s.activeWorkspace < s.workspaces.length) : s.Seated := by
  refine ⟨h, hs.active, fun hnil => ?_⟩
  rw [hs.bare hnil]
  rfl

lemma minted_splitRight {s : AppState F} {target : PaneId} {spawned : SpawnResult} (h : s.canSplitRight target = true) :
    s.minted (.splitRight target spawned) = [s.nextId] := if_pos h

lemma minted_splitDown {s : AppState F} {target : PaneId} {spawned : SpawnResult} (h : s.canSplitDown target = true) :
    s.minted (.splitDown target spawned) = [s.nextId] := if_pos h

lemma minted_nodup (s : AppState F) (op : Op) : (s.minted op).Nodup := by
  cases op with
  | splitRight target spawned =>
    unfold minted
    dsimp only
    split_ifs
    · exact List.nodup_singleton _
    · exact List.nodup_nil
  | splitDown target spawned =>
    unfold minted
    dsimp only
    split_ifs
    · exact List.nodup_singleton _
    · exact List.nodup_nil
  | addTab spawned => exact List.nodup_singleton _
  | addWorktreeTab title spawned => exact List.nodup_singleton _
  | addEditorTab editor => exact List.nodup_singleton _
  | addFlowTab pane => exact List.nodup_singleton _
  | addAgentTab launch outcome => exact List.nodup_singleton _
  | _ => exact List.nodup_nil

end

section
variable {F : Type} [F32 F]

/-- a step that rearranges turns out no pane, and brings the one that it mints -/
lemma step_turns {s t : AppState F} (hs : s.Seated) {op : Op} (hop : op.rearranges = true)
    (hsole : ∀ source n, op = .reorder source n → s.SoleActive) (h : step s op = some t) :
    Turns s t [] (s.minted op) := by
  cases op with
  | addTab spawned => exact Option.some.inj h ▸ openTab_turns hs _ _ _
  | addWorktreeTab title spawned => exact Option.some.inj h ▸ openTab_turns hs _ _ _
  | addEditorTab editor => exact Option.some.inj h ▸ openTab_turns hs _ _ _
  | addFlowTab pane => exact Option.some.inj h ▸ openTab_turns hs _ _ _
  | addAgentTab launch outcome => exact Option.some.inj h ▸ openTab_turns hs _ _ _
  | splitRight target spawned =>
    obtain ⟨hcan, rfl⟩ | ⟨hcan, hsplit⟩ := mutateSplitRight_cases h
    · rw [show t.minted (.splitRight target spawned) = [] from if_neg (Bool.eq_false_iff.mp hcan)]
      exact .refl hs
    · rw [minted_splitRight hcan]
      exact hsplit.turns hs (ids_ne_nil (canSplitRight_mem hcan))
  | splitDown target spawned =>
    obtain ⟨hcan, rfl⟩ | ⟨hcan, hsplit⟩ := mutateSplitDown_cases h
    · rw [show t.minted (.splitDown target spawned) = [] from if_neg (Bool.eq_false_iff.mp hcan)]
      exact .refl hs
    · rw [minted_splitDown hcan]
      exact hsplit.turns hs (ids_ne_nil (canSplitDown_mem hcan))
  | focusLeft => exact turns_of_relives hs (mutateFocus_cases (.inl h))
  | focusRight => exact turns_of_relives hs (mutateFocus_cases (.inr (.inl h)))
  | focusUp => exact turns_of_relives hs (mutateFocus_cases (.inr (.inr (.inl h))))
  | focusDown => exact turns_of_relives hs (mutateFocus_cases (.inr (.inr (.inr h))))
  | focusPane workspaceIdx target => exact focusWorkspacePaneByIndex_turns hs h
  | extract target newTabIndex => exact mutateExtractPaneToTab_turns hs h
  | reorder sourceTabId newIndex => exact (mutateTabReorder_turns hs (hsole sourceTabId newIndex rfl) h).1
  | dropSplit sourceTabId target edge =>
    obtain ⟨gone, hturns, hgone⟩ := mutatePaneDropSplit_turns hs h
    rw [hgone (of_decide_eq_true hop)] at hturns
    exact hturns
  | moveToEdge source target edge => exact turns_of_relives hs (mutatePaneMoveToEdge_cases h)
  | swap a b => exact turns_of_relives hs (mutatePaneSwap_cases h)
  | swapFromTab sourceTabId target => exact mutatePaneSwapFromTab_turns hs h
  | switchTab newIndex => exact mutateSwitchTab_turns hs h
  | switchWorkspace newIndex => exact (mutateSwitchWorkspace_turns hs h).1
  | closePane target => cases hop
  | closeTab index => cases hop
  | addWorkspace path folder => cases hop
  | removeWorkspace idx => cases hop
  | killWorkspaceTerminals wsIdx => cases hop
  | killWorkspaceAgents wsIdx => cases hop
  | killAll => cases hop
  | killSession sessionId => cases hop
  | closeUnsaved choice => cases hop

omit [F32 F] in
lemma KeepsPanes.keepsShape {s : AppState F} {op : Op} (hop : op.rearranges = true) (h : s.KeepsPanes op) :
    s.KeepsShape op := by
  cases op with
  | focusPane workspaceIdx target => exact h.2.2
  | killSession sessionId => cases hop
  | _ => trivial

/-- the panes that the steps of a run bring, the last one in front -/
def mintedAlong (s : AppState F) : List Op → List PaneId
  | [] => []
  | op :: ops => ((step s op).elim [] fun t => mintedAlong t ops) ++ s.minted op

end
end AppState

section
variable {F : Type} [F32 F]

/-- **Main result.**  A run that rearranges keeps the panes: afterwards there are those there were, and the
old `nextId` for each split and each tab that is opened, all distinct, and the layouts are in shape. -/
theorem panes_conserved {s : AppState F} (hs : s.Shape) (hnodup : s.paneIds.Nodup) {ops : List Op}
    (hops : ∀ op ∈ ops, op.rearranges = true) (hkeeps : Along step AppState.KeepsPanes s ops) :
    ∃ t, exec step s ops = some t ∧ t.Shape ∧ t.paneIds ~ s.mintedAlong ops ++ s.paneIds ∧ t.paneIds.Nodup := by
  induction ops generalizing s with
  | nil => exact ⟨s, rfl, hs, .refl _, hnodup⟩
  | cons op ops ih =>
    have hop := hops op List.mem_cons_self
    obtain ⟨t, ht, hshape⟩ := hs.step op
    have hsole : ∀ source n, op = .reorder source n → s.SoleActive := by
      rintro source n rfl
      exact hkeeps.1.2.2
    have hturns := AppState.step_turns (hs.seated hkeeps.1.1) hop hsole ht
    have hnodup' : t.paneIds.Nodup := by
      apply hturns.perm.nodup_iff.mpr
      refine List.nodup_append.mpr ⟨s.minted_nodup op, hnodup, fun id hid id' hid' heq => ?_⟩
      exact hkeeps.1.2.1 id hid (heq ▸ hid')
    obtain ⟨u, hu, hshape', hperm, hnodup''⟩ := ih (hshape.mpr (hkeeps.1.keepsShape hop)) hnodup'
      (fun op h => hops op (List.mem_cons_of_mem _ h)) (hkeeps.2 t ht)
    refine ⟨u, ?_, hshape', ?_, hnodup''⟩
    · show (step s op).bind _ = some u
      rw [ht]
      exact hu
    · unfold AppState.mintedAlong
      rw [ht, List.append_assoc]
      exact hperm.trans (hturns.perm.append_left _)

end

/-- a split, the first pane made a tab of its own, which then has the id of the tab that it comes from, and
that tab moved to the end -/
def doubledTab : List Op := [.splitRight 1 (.ok 5 0), .extract 1 0, .reorder "t1" 2]

/-- pane 2 is lost and pane 1 is there twice -/
theorem doubledTab_panes :
    AppState.Shape firstRun ∧ firstRun.paneIds = [1] ∧ (firstRun.tabs.map (·.id)).Nodup ∧
      ∃ t, exec (@step ℚ Ui.exactF32) firstRun doubledTab = some t ∧ t.paneIds = [1, 1] := by
  refine ⟨@AppState.seedState_shape ℚ Ui.exactF32 _ _ _, by decide, by decide, ?_⟩
  exact ⟨_, rfl, by decide⟩

theorem panes_conserved_extract :
    ∃ t, exec (@step ℚ Ui.exactF32) firstRun [.splitRight 1 (.ok 5 0), .extract 1 0] = some t ∧ t.Shape ∧
      t.paneIds ~ @AppState.mintedAlong ℚ Ui.exactF32 firstRun [.splitRight 1 (.ok 5 0), .extract 1 0] ++
        firstRun.paneIds ∧ t.paneIds.Nodup := by
  let _ := Ui.exactF32
  refine panes_conserved (AppState.seedState_shape _ _ _) (by decide) (by decide) ⟨⟨by decide, by decide, trivial⟩, ?_⟩
  intro t ht
  obtain rfl := Option.some.inj ht
  exact ⟨⟨by decide, by decide, trivial⟩, fun _ _ => trivial⟩

end TerminalManager.App

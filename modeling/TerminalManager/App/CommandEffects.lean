import TerminalManager.App.Commands
import TerminalManager.App.Outcomes

/-!
# What a command does

* `Retitled`         two states with their panes at the same places;
* `Rewrites`         editors rewritten where they are, and titles;
* `Seated.dispatch`  every command keeps the state seated.
-/

namespace TerminalManager.App
open Ui (F32)

/-! ## titles -/

section
variable {F : Type}

lemma PaneLayout.rename_ids (l : PaneLayout F) (id : PaneId) (title : String) : (l.rename id title).ids = l.ids := by
  unfold PaneLayout.rename PaneLayout.ids PaneLayout.flat
  rw [← List.map_flatten, List.map_map]
  apply List.map_congr_left
  intro p _
  show Pane.id (if p.id = id then { p with title } else p) = p.id
  split_ifs <;> rfl

lemma TerminalTab.renamePane_paneIds (t : TerminalTab F) (id : PaneId) (title : String) :
    (t.renamePane id title).paneIds = t.paneIds := by
  unfold TerminalTab.renamePane
  by_cases hmem : t.layout.ids.contains id
  · rw [if_pos hmem]
    exact PaneLayout.rename_ids t.layout id title
  · rw [if_neg hmem]

lemma TerminalTab.syncTitle_paneIds (t : TerminalTab F) (id : PaneId) (title : String) :
    (t.syncTitle id title).paneIds = t.paneIds := by
  unfold TerminalTab.syncTitle
  by_cases hmem : t.layout.ids.contains id
  · rw [if_pos hmem]
    exact PaneLayout.rename_ids t.layout id title
  · rw [if_neg hmem]

lemma getElem?_map_paneIds {tabs : List (TerminalTab F)} {f : TerminalTab F → TerminalTab F}
    (hf : ∀ t, (f t).paneIds = t.paneIds) (n : Nat) :
    (tabs.map f)[n]?.map TerminalTab.paneIds = tabs[n]?.map TerminalTab.paneIds := by
  rw [List.getElem?_map, Option.map_map]
  congr 1
  funext t
  exact hf t

lemma getElem?_modify_paneIds {tabs : List (TerminalTab F)} {f : TerminalTab F → TerminalTab F}
    (hf : ∀ t, (f t).paneIds = t.paneIds) (i n : Nat) :
    (tabs.modify i f)[n]?.map TerminalTab.paneIds = tabs[n]?.map TerminalTab.paneIds := by
  rw [List.getElem?_modify, Option.map_eq_map, Option.map_map]
  congr 1
  funext t
  show TerminalTab.paneIds (if i = n then f t else t) = t.paneIds
  split_ifs
  · exact hf t
  · rfl

/-- tabs that keep their panes one by one keep them together -/
lemma flatMap_map_paneIds {tabs : List (TerminalTab F)} {f : TerminalTab F → TerminalTab F}
    (hf : ∀ t, (f t).paneIds = t.paneIds) :
    (tabs.map f).flatMap TerminalTab.paneIds = tabs.flatMap TerminalTab.paneIds := by
  rw [List.flatMap_map]
  exact List.flatMap_congr fun t _ => hf t

end

namespace AppState
section
variable {F : Type}

/-- the panes and the tables are where they were; only texts differ -/
structure Retitled (s t : AppState F) : Prop where
  seated : s.Seated → t.Seated
  paneIds : t.paneIds = s.paneIds
  tabPaneIds : ∀ n, t.tabPaneIds n = s.tabPaneIds n

lemma Retitled.refl (s : AppState F) : Retitled s s := ⟨fun hs => hs, rfl, fun _ => rfl⟩

lemma Retitled.trans {s t u : AppState F} (h : Retitled s t) (h' : Retitled t u) : Retitled s u :=
  ⟨fun hs => h'.seated (h.seated hs), h'.paneIds.trans h.paneIds, fun n => (h'.tabPaneIds n).trans (h.tabPaneIds n)⟩

lemma renamePane_retitled (s : AppState F) (id : PaneId) (title : String) : Retitled s (s.renamePane id title) := by
  refine ⟨fun hs => ⟨?_, fun hne => ?_, fun hnil => ?_⟩, ?_, fun n => ?_⟩
  · show s.activeWorkspace < (s.workspaces.map _).length
    rw [List.length_map]
    exact hs.workspace
  · show s.activeTab < (s.tabs.map _).length
    rw [List.length_map]
    exact hs.tab fun hnil => hne (congrArg (List.map _) hnil)
  · show (s.live.rename id title).ids = []
    rw [PaneLayout.rename_ids]
    exact hs.bare (List.map_eq_nil_iff.mp hnil)
  · show ((s.live.rename id title).ids ++ ((s.tabs.map _).eraseIdx s.activeTab).flatMap _) ++
      ((s.workspaces.map _).eraseIdx s.activeWorkspace).flatMap _ = _
    rw [PaneLayout.rename_ids, List.eraseIdx_map, List.eraseIdx_map,
      flatMap_map_paneIds fun t => t.renamePane_paneIds id title, List.flatMap_map]
    congr 1
    apply List.flatMap_congr
    intro ws _
    exact flatMap_map_paneIds fun t => t.renamePane_paneIds id title
  · show (if n = s.activeTab then some (s.live.rename id title).ids else _) = _
    rw [PaneLayout.rename_ids]
    unfold tabPaneIds
    rw [show (s.renamePane id title).tabs = s.tabs.map (·.renamePane id title) from rfl,
      getElem?_map_paneIds fun t => t.renamePane_paneIds id title]

lemma syncEditorPaneTitle_retitled (s : AppState F) (id : PaneId) :
    Retitled s (s.syncEditorPaneTitle id) ∧ (s.syncEditorPaneTitle id).side = s.side := by
  unfold syncEditorPaneTitle
  cases s.side.editors.get id with
  | none => exact ⟨.refl s, rfl⟩
  | some editor =>
    dsimp only
    generalize (if editor.dirty then "\u25CF " ++ editor.displayName else editor.displayName) = title
    have htabs : ∃ f : TerminalTab F → TerminalTab F, (∀ t, (f t).paneIds = t.paneIds) ∧
        (if s.live.flat.length = 1 ∧ s.live.ids.contains id then
          (s.tabs.map (·.syncTitle id title)).modify s.activeTab ({ · with name := title })
        else s.tabs.map (·.syncTitle id title)) = (s.tabs.map (·.syncTitle id title)).modify s.activeTab f := by
      split_ifs
      · exact ⟨({ · with name := title }), fun t => rfl, rfl⟩
      · exact ⟨fun t => t, fun t => rfl, (List.modify_id _ _).symm⟩
    obtain ⟨f, hf, htabs⟩ := htabs
    rw [htabs]
    refine ⟨⟨fun hs => ⟨hs.workspace, fun hne => ?_, fun hnil => ?_⟩, ?_, fun n => ?_⟩, rfl⟩
    · show s.activeTab < ((s.tabs.map _).modify _ _).length
      rw [List.length_modify, List.length_map]
      refine hs.tab fun hnil => hne ?_
      show (s.tabs.map _).modify _ _ = []
      rw [hnil]
      exact List.modify_eq_nil_iff.mpr rfl
    · show (s.live.rename id title).ids = []
      rw [PaneLayout.rename_ids]
      exact hs.bare (List.map_eq_nil_iff.mp (List.modify_eq_nil_iff.mp hnil))
    · show ((s.live.rename id title).ids ++ (((s.tabs.map _).modify s.activeTab f).eraseIdx s.activeTab).flatMap _) ++
        s.otherPaneIds = _
      rw [PaneLayout.rename_ids, List.eraseIdx_modify_of_eq, List.eraseIdx_map,
        flatMap_map_paneIds fun t => t.syncTitle_paneIds id title]
      rfl
    · show (if n = s.activeTab then some (s.live.rename id title).ids else
        ((s.tabs.map _).modify s.activeTab f)[n]?.map TerminalTab.paneIds) = _
      rw [PaneLayout.rename_ids, getElem?_modify_paneIds hf, getElem?_map_paneIds fun t => t.syncTitle_paneIds id title]
      rfl

lemma dirtyEditorPanes_eq_nil {s : AppState F} {ids : List PaneId} (h : s.dirtyEditorPanes ids = []) :
    ∀ id ∈ ids, s.dirtyEditor id = false := by
  intro id hid
  have hnone := List.filterMap_eq_nil_iff.mp h id hid
  unfold dirtyEditor
  cases hget : s.side.editors.get id with
  | none => rfl
  | some editor =>
    rw [hget, Option.map_eq_none_iff, Option.filter_some] at hnone
    split_ifs at hnone with hdirty
    exact Bool.eq_false_iff.mpr hdirty

/-- an editor rewritten where it is; `t` has the panes and the tables of `s` but for that -/
structure Rewrites (s t : AppState F) : Prop where
  retitled : Retitled s t
  sessions : t.side.sessions = s.side.sessions
  agents : t.side.mentions = s.side.mentions
  editors : ∀ id, t.side.editors.contains id = s.side.editors.contains id

lemma Rewrites.refl (s : AppState F) : Rewrites s s := ⟨.refl s, rfl, rfl, fun _ => rfl⟩

lemma Rewrites.trans {s t u : AppState F} (h : Rewrites s t) (h' : Rewrites t u) : Rewrites s u :=
  ⟨h.retitled.trans h'.retitled, h'.sessions.trans h.sessions, h'.agents.trans h.agents,
    fun id => (h'.editors id).trans (h.editors id)⟩

/-- an editor put in the place of one, and its title written out -/
lemma rewrites_editor {s : AppState F} {id : PaneId} {editor : EditorPane} (hget : s.side.editors.get id = some editor)
    (editor' : EditorPane) :
    Rewrites s (syncEditorPaneTitle { s with
      side := { s.side with editors := s.side.editors.insert id editor' } } id) := by
  obtain ⟨hretitled, hside⟩ := syncEditorPaneTitle_retitled
    { s with side := { s.side with editors := s.side.editors.insert id editor' } } id
  refine ⟨⟨fun hs => hretitled.seated ⟨hs.workspace, hs.tab, hs.bare⟩, hretitled.paneIds, hretitled.tabPaneIds⟩,
    by rw [hside], by rw [hside]; rfl, fun j => ?_⟩
  rw [hside]
  show (s.side.editors.insert id editor').contains j = _
  rw [Table.contains_insert]
  by_cases hj : j = id
  · rw [hj, Table.contains_of_get hget]
    exact Bool.or_true _
  · rw [decide_eq_false hj]
    rfl

lemma dirtyEditor_sync {s : AppState F} {id j : PaneId} {editor' : EditorPane} :
    dirtyEditor (syncEditorPaneTitle { s with
      side := { s.side with editors := s.side.editors.insert id editor' } } id) j =
        if j = id then editor'.dirty else s.dirtyEditor j := by
  unfold dirtyEditor
  rw [(syncEditorPaneTitle_retitled _ id).2]
  show ((s.side.editors.insert id editor').get j).any _ = _
  rw [Table.get_insert]
  split_ifs <;> rfl

/-- a pane that is saved, or not: no editor goes and none has new unsaved changes -/
lemma saveEditorPane_spec (s : AppState F) (id : PaneId) (saved : Bool) :
    Rewrites s (s.saveEditorPane id saved).1 ∧
      (∀ j, (s.saveEditorPane id saved).1.dirtyEditor j = true → s.dirtyEditor j = true) ∧
      ((s.saveEditorPane id saved).2 = true → saved = true ∧ s.side.editors.contains id = true) := by
  unfold saveEditorPane
  cases hget : s.side.editors.get id with
  | none => exact ⟨.refl s, fun _ h => h, fun h => by cases h⟩
  | some editor =>
    refine ⟨rewrites_editor hget _, fun j hj => ?_, fun h => ⟨h, Table.contains_of_get hget⟩⟩
    dsimp only at hj
    rw [dirtyEditor_sync] at hj
    split_ifs at hj with heq
    · unfold dirtyEditor
      rw [heq, hget]
      exact (Bool.and_eq_true_iff.mp hj).1
    · exact hj

lemma saveEditorPanes_spec (s : AppState F) (saved ids : List PaneId) :
    Rewrites s (s.saveEditorPanes saved ids).1 ∧
      (∀ j, (s.saveEditorPanes saved ids).1.dirtyEditor j = true → s.dirtyEditor j = true) ∧
      ((s.saveEditorPanes saved ids).2 = true → ∀ id ∈ ids, id ∈ saved ∧ s.side.editors.contains id = true) := by
  induction ids generalizing s with
  | nil => exact ⟨.refl s, fun _ h => h, fun _ id hid => by cases hid⟩
  | cons id ids ih =>
    obtain ⟨hfirst, hdirty, hsaved⟩ := s.saveEditorPane_spec id (saved.contains id)
    obtain ⟨hrest, hdirty', hall⟩ := ih (s.saveEditorPane id (saved.contains id)).1
    refine ⟨hfirst.trans hrest, fun j hj => hdirty j (hdirty' j hj), fun h j hj => ?_⟩
    obtain ⟨hone, hothers⟩ := Bool.and_eq_true_iff.mp h
    rcases List.mem_cons.mp hj with rfl | hj
    · obtain ⟨hin, hcontains⟩ := hsaved hone
      exact ⟨List.contains_iff_mem.mp hin, hcontains⟩
    · obtain ⟨hin, hcontains⟩ := hall hothers j hj
      exact ⟨hin, (hfirst.editors j) ▸ hcontains⟩

lemma mutateRenamePane_rewrites (s : AppState F) (id : PaneId) (name : String) :
    Rewrites s (s.mutateRenamePane id name) ∧ (s.mutateRenamePane id name).side.editors = s.side.editors := by
  have hrename (custom : Table PaneId Unit) (title : String) :
      Rewrites s (renamePane { s with side := { s.side with customTitledPanes := custom } } id title) :=
    have h := renamePane_retitled { s with side := { s.side with customTitledPanes := custom } } id title
    ⟨⟨fun hs => h.seated ⟨hs.workspace, hs.tab, hs.bare⟩, h.paneIds, h.tabPaneIds⟩, rfl, rfl, fun _ => rfl⟩
  unfold mutateRenamePane
  dsimp only
  split_ifs
  · exact ⟨hrename _ _, rfl⟩
  · exact ⟨hrename _ _, rfl⟩

lemma editPane_rewrites (s : AppState F) (target : PaneId) (dirty : Bool) : Rewrites s (s.editPane target dirty) := by
  unfold editPane
  cases hget : s.side.editors.get target with
  | none => exact .refl s
  | some editor =>
    dsimp only
    split_ifs
    · exact .refl s
    · exact rewrites_editor hget _

end

section
variable {F : Type} [F32 F]

/-- the close that the dialog stood in front of takes the panes of its tab, or its first pane -/
lemma closeEditorDialogScope_closes {s t : AppState F} (hs : s.Seated) {paneIds : List PaneId} {tab : Option Nat}
    (h : s.closeEditorDialogScope paneIds tab = some t) :
    Closes s t (tab.elim (paneIds.take 1) fun idx => (s.tabPaneIds idx).getD []) := by
  unfold closeEditorDialogScope at h
  cases tab with
  | some idx => exact mutateCloseTab_closes hs h
  | none =>
    cases paneIds with
    | nil => exact Option.some.inj h ▸ .refl hs []
    | cons id rest => exact mutateClosePane_closes hs h

lemma mutateClosePane_seated {s t : AppState F} (hs : s.Seated) {target : PaneId}
    (h : s.mutateClosePane target = some t) : t.Seated := by
  obtain ⟨gone, hturns, -⟩ := mutateClosePane_closes hs h
  exact hturns.seated

omit [F32 F] in
lemma mutateCloseTab_seated {s t : AppState F} (hs : s.Seated) {index : Nat} (h : s.mutateCloseTab index = some t) :
    t.Seated := by
  obtain ⟨gone, hturns, -⟩ := mutateCloseTab_closes hs h
  exact hturns.seated

lemma confirm_seated {s t : AppState F} (hs : s.Seated) (h : s.confirm = some t) : t.Seated := by
  have hs' : Seated { s with confirmDialog := none } := ⟨hs.workspace, hs.tab, hs.bare⟩
  unfold confirm at h
  dsimp only at h
  split at h
  · exact Option.some.inj h ▸ mutateKillWorkspaceTerminals_seated hs' _
  · exact Option.some.inj h ▸ mutateKillAllTerminals_seated hs'
  · exact mutateKillWorkspaceAgents_seated hs' h
  · exact Option.some.inj h ▸ hs

lemma resolveClose_seated {s t : AppState F} (hs : s.Seated) (h : s.resolveClose = some t) : t.Seated := by
  unfold resolveClose at h
  dsimp only at h
  split_ifs at h
  · exact finalizeCloseChoice_seated hs h
  · exact finalizeCloseChoice_seated hs h
  · exact Option.some.inj h ▸ ⟨hs.workspace, hs.tab, hs.bare⟩

/-- every command keeps the state seated -/
lemma Seated.dispatch {s t : AppState F} (hs : s.Seated) {c : Command} (h : dispatch s c = some t) : t.Seated := by
  have hdialog (dialog : Option ConfirmDialog) : Seated { s with confirmDialog := dialog } :=
    ⟨hs.workspace, hs.tab, hs.bare⟩
  unfold App.dispatch at h
  cases c with
  | layout op => exact hs.step h
  | requestClosePane target =>
    dsimp only at h
    unfold requestClosePane at h
    split at h
    · exact mutateClosePane_seated hs h
    · exact Option.some.inj h ▸ hdialog _
  | requestCloseTab index =>
    dsimp only at h
    unfold requestCloseTab at h
    split_ifs at h
    · exact Option.some.inj h ▸ hs
    · obtain ⟨ids, -, h⟩ := Option.bind_eq_some_iff.mp h
      split at h
      · exact mutateCloseTab_seated hs h
      · exact Option.some.inj h ▸ hdialog _
  | requestKillWorkspace idx =>
    dsimp only at h
    split at h
    · exact Option.some.inj h ▸ hdialog _
    · exact Option.some.inj h ▸ hs
  | requestKillAgents idx =>
    dsimp only at h
    split at h
    · split_ifs at h
      · exact Option.some.inj h ▸ hs
      · exact Option.some.inj h ▸ hdialog _
    · exact Option.some.inj h ▸ hs
  | requestKillAll => exact Option.some.inj h ▸ hdialog _
  | requestRename target => exact Option.some.inj h ▸ hdialog _
  | requestClose => exact resolveClose_seated hs h
  | confirm => exact confirm_seated hs h
  | cancel => exact Option.some.inj h ▸ hdialog _
  | editorSaveClose saved =>
    dsimp only at h
    split at h
    · exact Option.some.inj h ▸ hs
    · rename_i paneIds tab _
      have hsaved := (saveEditorPanes_spec { s with confirmDialog := none } saved paneIds).1.retitled.seated (hdialog none)
      split_ifs at h
      · obtain ⟨gone, hturns, -⟩ := closeEditorDialogScope_closes hsaved h
        exact hturns.seated
      · exact Option.some.inj h ▸ hsaved
  | editorDiscardClose =>
    dsimp only at h
    split at h
    · exact Option.some.inj h ▸ hs
    · obtain ⟨gone, hturns, -⟩ := closeEditorDialogScope_closes (hdialog none) h
      exact hturns.seated
  | renameCommit buffer accepted =>
    dsimp only at h
    split at h
    · split_ifs at h
      · exact Option.some.inj h ▸ hdialog _
      · exact Option.some.inj h ▸ (mutateRenamePane_rewrites _ _ buffer).1.retitled.seated (hdialog none)
    · exact Option.some.inj h ▸ hdialog _
  | toggleRemember =>
    dsimp only at h
    split at h
    · exact Option.some.inj h ▸ hdialog _
    · exact Option.some.inj h ▸ hs
  | toggleKeep target =>
    dsimp only at h
    split at h
    · exact Option.some.inj h ▸ hdialog _
    · exact Option.some.inj h ▸ hs
  | closeApp keepRunning =>
    dsimp only at h
    unfold closeApp at h
    split at h
    · exact finalizeCloseChoice_seated hs h
    · exact Option.some.inj h ▸ hs
  | edit target dirty => exact Option.some.inj h ▸ (editPane_rewrites s target dirty).retitled.seated hs
  | editorSave saved =>
    dsimp only at h
    split at h
    · exact Option.some.inj h ▸ hs
    · split_ifs at h
      · exact Option.some.inj h ▸ hs
      · exact Option.some.inj h ▸ (s.saveEditorPane_spec s.live.activePane saved).1.retitled.seated hs

end
end AppState
end TerminalManager.App

import PirateServer.Client.Reload

/-! What the migration of the rule source does to the decisions: it looks at the default board, and
takes the bypass lists of all boards out of use. -/
namespace PirateServer.Client
open Lib Lines

variable (net : Net) (data : SettingsFile)

/-- The list of the board decides for no host that the global list leaves open. -/
def Redundant (global : GlobalSettings) (board : BoardConfig) : Prop :=
  ∀ g, BypassMatcher.fromRules net global.bypass = .ok g →
    ∃ b, BypassMatcher.fromRules net board.bypass = .ok b ∧
      ∀ host, b.matchesHost net host = true → g.matchesHost net host = true

def AllBoardsDecideAlike : Prop :=
  ∀ id board, data.boards.lookup id = some board →
    ∃ board', (migrateTrafficRuleSettings data).boards.lookup id = some board' ∧ ∀ host rules,
      tunnelDecision net host board' (migrateTrafficRuleSettings data).global rules =
        tunnelDecision net host board data.global rules

/-- The migration returns early: a source is set, no bundle has a path, or the default board has a
bypass list. -/
def StaysAsItIs : Prop :=
  trim data.global.trafficRuleSource ≠ [] ∨
  (isBlank data.global.defaultRules.blockJson = true ∧
    isBlank data.global.defaultRules.passJson = true ∧
    isBlank data.global.defaultRules.ourJson = true) ∨
  ∃ board, data.boards.lookup (if trim data.defaultBoard = [] then "default".toList
    else data.defaultBoard) = some board ∧ board.bypass ≠ []

lemma merged_eq_bundles_iff (global : GlobalSettings) (board : BoardConfig) :
    (∀ host rules, tunnelDecisionBundles net host global rules =
      tunnelDecisionMerged net host board global rules) ↔ Redundant net global board := by
  constructor
  · intro hsame g hg
    have hplain := fun host => hsame host none
    simp only [tunnelDecisionBundles,tunnelDecisionMerged,bundlesFirst,passMatches,hg] at hplain
    cases hb : BypassMatcher.fromRules net board.bypass with
    | error e =>
      have h := hplain []
      rw [hb] at h
      cases hm : g.matchesHost net [] <;> simp [Bind.bind,Except.bind,pure,Except.pure,hm] at h
    | ok b =>
      refine ⟨b,rfl,fun host hmatch => ?_⟩
      have h := hplain host
      rw [hb] at h
      by_contra hno
      rw [Bool.not_eq_true] at hno
      simp [Bind.bind,Except.bind,pure,Except.pure,hno,hmatch] at h
  · intro hred host rules
    unfold tunnelDecisionBundles tunnelDecisionMerged
    cases bundlesFirst net host rules with
    | some d => rfl
    | none =>
      cases hg : BypassMatcher.fromRules net global.bypass with
      | error e => rfl
      | ok g =>
        obtain ⟨b,hb,hsub⟩ := hred g hg
        have hor : (g.matchesHost net host || b.matchesHost net host) = g.matchesHost net host := by
          cases hm : b.matchesHost net host with
          | false => exact Bool.or_false _
          | true => rw [hsub host hm,Bool.or_true]
        simp only [hb,Bind.bind,Except.bind,hor]

lemma exists_lookup_map {f : Chars × BoardConfig → Chars × BoardConfig} (hf : ∀ e, (f e).1 = e.1)
    {boards : List (Chars × BoardConfig)} {id : Chars} {board : BoardConfig}
    (h : boards.lookup id = some board) : ∃ board', (boards.map f).lookup id = some board' := by
  induction boards with
  | nil => cases h
  | cons e boards ih =>
    rw [List.map_cons,List.lookup_cons,hf]
    rw [List.lookup_cons] at h
    cases hid : id == e.1 with
    | true => exact ⟨_,rfl⟩
    | false =>
      rw [hid] at h
      exact ih h

/-- The settings are left alone, or the bundles alone decide from now on. -/
lemma migrate_cases : StaysAsItIs data ∧ migrateTrafficRuleSettings data = data ∨
    ¬StaysAsItIs data ∧ trim data.global.trafficRuleSource = [] ∧
      (migrateTrafficRuleSettings data).global =
        { data.global with trafficRuleSource := "bundles".toList } ∧
      ∀ id board, data.boards.lookup id = some board →
        ∃ board', (migrateTrafficRuleSettings data).boards.lookup id = some board' := by
  unfold migrateTrafficRuleSettings StaysAsItIs
  dsimp only
  generalize (if trim data.defaultBoard = [] then "default".toList else data.defaultBoard) = key
  split_ifs with hsource hblank
  · exact .inl ⟨.inl hsource,rfl⟩
  · simp only [Bool.and_eq_true] at hblank
    exact .inl ⟨.inr (.inl ⟨hblank.1.1,hblank.1.2,hblank.2⟩),rfl⟩
  have hbundle : ¬(isBlank data.global.defaultRules.blockJson = true ∧
      isBlank data.global.defaultRules.passJson = true ∧
      isBlank data.global.defaultRules.ourJson = true) := by
    simpa only [Bool.and_eq_true,and_assoc] using hblank
  split
  · rename_i hboard
    refine .inr ⟨?_,not_not.mp hsource,rfl,fun _ board h => ⟨board,h⟩⟩
    rintro (h | h | ⟨board,h,_⟩)
    · exact hsource h
    · exact hbundle h
    · rw [hboard] at h
      cases h
  rename_i board hboard
  split_ifs with hbypass
  · refine .inr ⟨?_,not_not.mp hsource,rfl,fun id board h => exists_lookup_map (fun e => ?_) h⟩
    · rintro (h | h | ⟨b,h,hb⟩)
      · exact hsource h
      · exact hbundle h
      · rw [hboard] at h
        cases h
        exact hb hbypass
    · split_ifs with hk
      · exact hk.symm
      · rfl
  · exact .inl ⟨.inr (.inr ⟨board,hboard,hbypass⟩),rfl⟩

/-- Every board decides as before exactly when the migration returns early or every list of a board
is redundant; and a second migration changes nothing. -/
theorem migration_preserves_iff :
    (AllBoardsDecideAlike net data ↔ StaysAsItIs data ∨
      ∀ id board, data.boards.lookup id = some board → Redundant net data.global board) ∧
    migrateTrafficRuleSettings (migrateTrafficRuleSettings data) =
      migrateTrafficRuleSettings data := by
  rcases migrate_cases data with ⟨hearly,hsame⟩ | ⟨hlate,hsource,hglobal,hboards⟩
  · refine ⟨⟨fun _ => .inl hearly,fun _ id board h => ⟨board,?_,fun _ _ => ?_⟩⟩,?_⟩
    · rw [hsame,h]
    · rw [hsame]
    · rw [hsame,hsame]
  have hbundles : TrafficRuleSource.parse "bundles".toList = .bundles := by decide
  have hmerged : TrafficRuleSource.parse data.global.trafficRuleSource = .merged := by
    rw [TrafficRuleSource.parse,hsource]
    decide
  have hboard : ∀ board board' : BoardConfig,
      ((∀ host rules, tunnelDecision net host board'
        (migrateTrafficRuleSettings data).global rules =
        tunnelDecision net host board data.global rules) ↔ Redundant net data.global board) := by
    intro board board'
    rw [← merged_eq_bundles_iff]
    simp only [tunnelDecision,hglobal,hbundles,hmerged]
    rfl
  refine ⟨⟨fun halike => .inr (fun id board h => ?_),?_⟩,?_⟩
  · obtain ⟨board',_,hdec⟩ := halike id board h
    exact (hboard board board').mp hdec
  · rintro (hearly | hred) id board h
    · exact absurd hearly hlate
    · obtain ⟨board',hlook⟩ := hboards id board h
      exact ⟨board',hlook,(hboard board board').mpr (hred id board h)⟩
  · rw [migrateTrafficRuleSettings,if_pos]
    rw [hglobal]
    exact (by decide : trim "bundles".toList ≠ [])

/-- The default board has no list of its own, and the board `work` has one. -/
def twoBoards : SettingsFile where
  global := ⟨[],[],⟨some "block.json".toList,none,none⟩⟩
  routing := []
  defaultBoard := []
  boards := [("default".toList,⟨true,[]⟩),("work".toList,⟨true,["intra.example".toList]⟩)]

theorem migration_drops_board_list : ∃ board board',
    twoBoards.boards.lookup "work".toList = some board ∧
      (migrateTrafficRuleSettings twoBoards).boards.lookup "work".toList = some board' ∧
      tunnelDecision plainNet "intra.example".toList board twoBoards.global none = .ok .direct ∧
      tunnelDecision plainNet "intra.example".toList board'
        (migrateTrafficRuleSettings twoBoards).global none = .ok .tunnel := by
  refine ⟨⟨true,["intra.example".toList]⟩,⟨true,["intra.example".toList]⟩,?_⟩
  decide +kernel

end PirateServer.Client

import Planar.Proofs.Heap.Operations
set_option autoImplicit false

/-!
Runs: any calls in any order through any handles, failed calls included. `step_apply` is what
one call can do, and `Reachable.sound` carries it along a run.
-/

namespace Planar

/-- Bytes that a user puts anywhere into a mapped slice, one write after another. -/
def View.edit (view : View) (edits : List (Nat × List UInt8)) : View :=
  edits.foldl (fun v e => v.overwrite e.1 e.2) view

/-- One call through one handle. A mapping for writing comes with what is written. -/
inductive Action where
  | alloc (m : Manager) (hsize vsize : Nat)
  | share (p : Handle)
  | drop (p : Handle)
  | mapRead (p : Handle) (chroma : String) (region : Region)
  | mapWrite (p : Handle) (chroma : String) (region : Region) (edits : List (Nat × List UInt8))
  | unmap (p : Handle) (chroma : String) (region : Region)
  | planeRead (p : Handle) (chroma : String) (raw : RawRegion)
  | planeWrite (p : Handle) (chroma : String) (raw : RawRegion) (edits : List (Nat × List UInt8))
  | planeUnmap (p : Handle) (chroma : String) (raw : RawRegion)
  | tryResize (p : Handle) (request : ResizeRequest)
  | resize (p : Handle) (raw : RawResize)
  | clearPlane (p : Handle) (raw : RawRegion) (chroma : String)
  | clear (p : Handle) (raw : RawRegion)
  | readPacked (p : Handle) (bytes : List UInt8)
  | writePacked (p : Handle)
  | copy (m : Manager) (p : Handle) (raw : RawResize)
  | replace (m : Manager) (p : Handle) (raw : RawResize)
  | resizeOrReplace (m : Manager) (p : Handle) (raw : RawResize)
  deriving DecidableEq, Repr

namespace Action

def handle? : Action → Option Handle
  | .alloc .. => none
  | .share p | .drop p | .mapRead p .. | .mapWrite p .. | .unmap p .. | .planeRead p ..
  | .planeWrite p .. | .planeUnmap p .. | .tryResize p _ | .resize p _ | .clearPlane p ..
  | .clear p _ | .readPacked p _ | .writePacked p | .copy _ p _ | .replace _ p _
  | .resizeOrReplace _ p _ => some p

def manager? : Action → Option Manager
  | .alloc m _ _ | .copy m _ _ | .replace m _ _ | .resizeOrReplace m _ _ => some m
  | _ => none

def overwrites : Action → Bool
  | .drop _ | .mapWrite .. | .planeWrite .. | .clearPlane .. | .clear .. | .readPacked ..
  | .replace .. | .resizeOrReplace .. => true
  | _ => false

def perform : Action → Op Heap Unit
  | .alloc m hsize vsize => do let _ ← m.alloc hsize vsize
  | .share p => do let _ ← Heap.share p
  | .drop p => Op.update (Heap.drop p)
  | .mapRead p chroma region => do let _ ← Heap.mapRead p chroma region
  | .mapWrite p chroma region edits => do
    let view ← Heap.mapWrite p chroma region
    Op.update (Heap.commit p chroma region (view.edit edits))
  | .unmap p chroma region => Heap.unmap p chroma region
  | .planeRead p chroma raw => do let _ ← Planar.planeRead p chroma raw
  | .planeWrite p chroma raw edits => do
    let (region, view) ← Planar.planeWrite p chroma raw
    Op.update (Heap.commit p chroma region (view.edit edits))
  | .planeUnmap p chroma raw => Planar.planeUnmap p chroma raw
  | .tryResize p request => Heap.tryResize p request
  | .resize p raw => Planar.resize p raw
  | .clearPlane p raw chroma => Planar.clearPlane p raw chroma
  | .clear p raw => Planar.clear p raw
  | .readPacked p bytes => Planar.readPacked p bytes
  | .writePacked p => do let _ ← Planar.writePacked p
  | .copy m p raw => do let _ ← Planar.copy m p raw
  | .replace m p raw => Planar.replace m p raw
  | .resizeOrReplace m p raw => do let _ ← Planar.resizeOrReplace m p raw

def apply (a : Action) (h : Heap) : Heap := (a.perform h).2

/-- The manager of a storage that the call leaves behind. -/
def makers (a : Action) (h : Heap) : List Manager :=
  if (a.apply h).storages.size = h.storages.size then [] else a.manager?.toList

def Legal (a : Action) : Prop := ∀ m, a.manager? = some m → m.Built

end Action

namespace Heap

def applyAll (as : List Action) (h : Heap) : Heap := as.foldl (fun h a => a.apply h) h

/-- The heaps that calls can lead to, with the manager of each storage. -/
inductive Reachable : List Manager → Heap → Prop where
  | empty : Reachable [] .empty
  | step {makers : List Manager} {h : Heap} (a : Action) (ha : a.Legal)
      (hr : Reachable makers h) : Reachable (makers ++ a.makers h) (a.apply h)

/-- What a call through `handle?` does: the other handles see the same as before, and one that
does not overwrite leaves its own handle the same bytes. -/
structure Step (maker? : Option Manager) (handle? : Option Handle) (overwrites : Bool)
    (makers : List Manager) (h t : Heap) : Prop where
  sound : Sound makers t ∨ ∃ m, maker? = some m ∧ Sound (makers ++ [m]) t
  others : ∀ q picture s, handle? ≠ some q → h.find q = .ok (picture, s) → t.find q = .ok (picture, s)
  bytes : overwrites = false →
    ∀ q picture s, h.find q = .ok (picture, s) → ∃ picture', t.find q = .ok (picture', s)

section

variable {makers : List Manager} {h t u : Heap} {p : Handle} {maker? : Option Manager}

theorem Sound.empty : Sound [] .empty where
  size := rfl
  made i s hi := by cases hi
  live p picture hp := by cases hp
  counted i := rfl

theorem Step.of_works (hs : Sound makers h) (hw : Works (· = p) Nobody h t) :
    Step maker? (some p) false makers h t := by
  obtain ⟨ht, hc⟩ := hw makers hs
  refine ⟨.inl ht, fun q picture s hne hq => ?_, fun _ q picture s hq => ?_⟩
  · obtain ⟨picture', s', hq', hm, hb⟩ := hc q picture s hq
    rw [hq', hm fun heq => hne (heq ▸ rfl), hb id]
  · obtain ⟨picture', s', hq', -, hb⟩ := hc q picture s hq
    exact ⟨picture', hb id ▸ hq'⟩

theorem Step.of_touches (hs : Sound makers h) (hw : Touches p h t) :
    Step maker? (some p) true makers h t := by
  obtain ⟨ht, hc⟩ := hw makers hs
  refine ⟨.inl ht, fun q picture s hne hq => ?_, nofun⟩
  obtain ⟨picture', s', hq', hm, hb⟩ := hc q picture s hq
  have hqp : ¬ q = p := fun heq => hne (heq ▸ rfl)
  rw [hq', hm hqp, hb hqp]

theorem Step.after (hs : Sound makers h) (hw : Works (· = p) Nobody h t)
    (hstep : Sound makers t → Step maker? (some p) true makers t u) :
    Step maker? (some p) true makers h u := by
  have hfirst : Step none (some p) false makers h t := Step.of_works hs hw
  have hlast := hstep (hw makers hs).1
  exact ⟨hlast.sound, fun q picture s hne hq => hlast.others q picture s hne
    (hfirst.others q picture s hne hq), nofun⟩

theorem step_alloc (hs : Sound makers h) {m : Manager} (hm : m.Sound) (hsize vsize : Nat) :
    Step (some m) none false makers h (m.alloc hsize vsize h).2 := by
  by_cases hg : m.Grants hsize vsize
  · rw [Manager.alloc_of_grants hg]
    have hsound := hs.allocate hm (Manager.madeBy_blankStorage hm hg) (Manager.window_held hg)
    exact ⟨.inr ⟨m, rfl, hsound⟩, fun q picture s _ hq => find_allocate _ _ hq,
      fun _ q picture s hq => ⟨picture, find_allocate _ _ hq⟩⟩
  · obtain ⟨why, hr⟩ := Manager.alloc_of_not_grants hg h
    rw [hr]
    exact ⟨.inl hs, fun _ _ _ _ hq => hq, fun _ _ picture _ hq => ⟨picture, hq⟩⟩

theorem step_drop (hs : Sound makers h) (p : Handle) :
    Step maker? (some p) true makers h (h.drop p) :=
  ⟨.inl (hs.drop p),
    fun q _ _ hne hq => (find_drop fun heq : q = p => hne (heq ▸ rfl)).trans hq, nofun⟩

theorem next_ne {q : Handle} {found : Picture × Storage} (hq : h.find q = .ok found) : q ≠ h.next :=
  ne_of_live (find_eq_ok.mp hq).1

theorem step_withBlank {m : Manager} {request : ResizeRequest} (hs : Sound makers h) (hm : m.Sound)
    (hg : m.Grants request.newHsize request.newVsize)
    (hc : Copies p h.next (h.withBlank m request.newHsize request.newVsize) t) :
    Step (some m) (some p) false makers h t ∧ Sound (makers ++ [m]) t ∧
      ∃ picture, t.picture? h.next = some picture := by
  have hsound := hs.allocate hm (Manager.madeBy_blankStorage hm hg) (Manager.window_held hg)
  obtain ⟨ht, hframe⟩ := hc _ hsound
  refine ⟨⟨.inr ⟨m, rfl, ht⟩, fun q picture s hne hq => ?_, fun _ q picture s hq => ?_⟩, ht, ?_⟩
  · obtain ⟨picture', s', hq', hp, hb⟩ := hframe q picture s (find_allocate _ _ hq)
    have hmoved : ¬ (q = p ∨ q = h.next) := by
      rintro (heq | heq)
      · exact hne (heq ▸ rfl)
      · exact next_ne hq heq
    rw [hq', hp hmoved, hb (next_ne hq)]
  · obtain ⟨picture', s', hq', -, hb⟩ := hframe q picture s (find_allocate _ _ hq)
    exact ⟨picture', hb (next_ne hq) ▸ hq'⟩
  · obtain ⟨picture', s', hq', -⟩ := hframe h.next _ _ (find_allocate_self _ _)
    exact ⟨picture', (find_eq_ok.mp hq').1⟩

theorem step_copy (hs : Sound makers h) {m : Manager} (hm : m.Sound) (p : Handle) (raw : RawResize) :
    Step (some m) (some p) false makers h (copy m p raw h).2 := by
  obtain ⟨stop, hr⟩ | ⟨picture, request, t, hp, hg, hc, ⟨stop, hr⟩ | hr⟩ := copy_cases m p raw h
  · rw [hr]
    exact ⟨.inl hs, fun _ _ _ _ hq => hq, fun _ _ picture _ hq => ⟨picture, hq⟩⟩
  · rw [hr]
    obtain ⟨hstep, ht, -⟩ := step_withBlank hs hm hg hc
    refine ⟨.inr ⟨m, rfl, ht.drop _⟩, fun q picture s hne hq => ?_, fun ho q picture s hq => ?_⟩
    · exact (find_drop (next_ne hq)).trans (hstep.others q picture s hne hq)
    · obtain ⟨picture', hq'⟩ := hstep.bytes ho q picture s hq
      exact ⟨picture', (find_drop (next_ne hq)).trans hq'⟩
  · rw [hr]
    exact (step_withBlank hs hm hg hc).1

theorem replace_of_ok {m : Manager} {raw : RawResize} {q : Handle} (hc : copy m p raw h = (.ok q, t)) :
    replace m p raw h = (.ok (), t.succeed p q) := by
  unfold replace
  rw [Op.bind_of_ok hc]
  rfl

theorem replace_of_error {m : Manager} {raw : RawResize} {stop : Stop}
    (hc : copy m p raw h = (.error stop, t)) : replace m p raw h = (.error stop, t) := by
  unfold replace
  rw [Op.bind_of_error hc]

theorem step_replace (hs : Sound makers h) {m : Manager} (hm : m.Sound) (p : Handle)
    (raw : RawResize) : Step (some m) (some p) true makers h (replace m p raw h).2 := by
  cases hc : copy m p raw h with
  | mk result t =>
    have hstep := step_copy hs hm p raw
    rw [hc] at hstep
    cases result with
    | error stop =>
      rw [replace_of_error hc]
      exact ⟨hstep.sound, hstep.others, nofun⟩
    | ok q =>
      rw [replace_of_ok hc]
      obtain ⟨stop, hr⟩ | ⟨old, request, t', hp, hg, hcopies, ⟨stop, hr⟩ | hr⟩ := copy_cases m p raw h
      · rw [hr] at hc
        cases hc
      · rw [hr] at hc
        cases hc
      · rw [hr] at hc
        cases hc
        obtain ⟨-, ht, picture, hnext⟩ := step_withBlank hs hm hg hcopies
        -- the old picture is there until the copy takes over
        obtain ⟨s, -, hf, -⟩ := hs.find hp
        obtain ⟨old', hp'⟩ := hstep.bytes rfl p old s hf
        have hne : h.next ≠ p := (next_ne hf).symm
        refine ⟨.inr ⟨m, rfl, ht.succeed hne (find_eq_ok.mp hp').1 hnext⟩, fun r pic s hr hq => ?_, nofun⟩
        rw [find_succeed hne (find_eq_ok.mp hp').1 hnext (fun heq => hr (heq ▸ rfl)) (next_ne hq)]
        exact hstep.others r pic s hr hq

theorem step_resizeOrReplace (hs : Sound makers h) {m : Manager} (hm : m.Sound) (p : Handle)
    (raw : RawResize) : Step (some m) (some p) true makers h (resizeOrReplace m p raw h).2 := by
  have hw := works_resize p raw h
  rw [← Op.attempt_state] at hw
  unfold resizeOrReplace
  rw [Op.bind_run]
  cases hr : (resize p raw).attempt h with
  | mk result t =>
    rw [hr] at hw
    cases result with
    | error stop => exact Step.of_touches hs hw.touches
    | ok done =>
      cases done with
      | ok _ => exact Step.of_touches hs hw.touches
      | error why =>
        refine Step.after hs hw fun ht => ?_
        simp only
        split
        · exact Step.of_touches ht (Op.Tracking.refl t)
        · cases hc : replace m p raw t with
          | mk result u =>
            have hstep := step_replace ht hm p raw
            rw [hc] at hstep
            cases result with
            | error stop => rwa [Op.bind_of_error hc]
            | ok _ => rwa [Op.bind_of_ok hc]

theorem touches_mapWrite_edit (p : Handle) (chroma : String) (region : Region)
    (edits : List (Nat × List UInt8)) (h : Heap) :
    Touches p h ((Action.mapWrite p chroma region edits).apply h) := by
  refine Op.bind_related (works_mapWrite p chroma region h).touches fun view t hw => ?_
  exact touches_commit (owns_of_mapWrite hw) chroma region (view.edit edits)

theorem touches_planeWrite_edit (p : Handle) (chroma : String) (raw : RawRegion)
    (edits : List (Nat × List UInt8)) (h : Heap) :
    Touches p h ((Action.planeWrite p chroma raw edits).apply h) := by
  refine Op.bind_related (works_planeWrite p chroma raw h).touches fun ⟨region, view⟩ t hw => ?_
  exact touches_commit (owns_of_planeWrite hw) chroma region (view.edit edits)

theorem discard_state {α : Type} (op : Op Heap α) (h : Heap) :
    ((do let _ ← op) h : Except Stop Unit × Heap).2 = (op h).2 := by
  rw [Op.bind_run]
  cases op h with
  | mk result t => cases result <;> rfl

/-- One call, whatever it is and however it ends. -/
theorem step_apply (a : Action) (ha : a.Legal) (hs : Sound makers h) :
    Step a.manager? a.handle? a.overwrites makers h (a.apply h) := by
  have sound {m : Manager} (hm : a.manager? = some m) : m.Sound := (ha m hm).sound
  cases a with
  | alloc m hsize vsize =>
    rw [Action.apply, Action.perform, discard_state]
    exact step_alloc hs (sound rfl) hsize vsize
  | share p =>
    rw [Action.apply, Action.perform, discard_state]
    exact Step.of_works hs ((works_share p).mono (fun _ hq => hq.elim) fun _ hq => hq)
  | drop p => exact step_drop hs p
  | mapRead p chroma region =>
    rw [Action.apply, Action.perform, discard_state]
    exact Step.of_works hs (works_mapRead p chroma region h)
  | mapWrite p chroma region edits =>
    exact Step.of_touches hs (touches_mapWrite_edit p chroma region edits h)
  | unmap p chroma region => exact Step.of_works hs (works_unmap p chroma region h)
  | planeRead p chroma raw =>
    rw [Action.apply, Action.perform, discard_state]
    exact Step.of_works hs (works_planeRead p chroma raw h)
  | planeWrite p chroma raw edits =>
    exact Step.of_touches hs (touches_planeWrite_edit p chroma raw edits h)
  | planeUnmap p chroma raw => exact Step.of_works hs (works_planeUnmap p chroma raw h)
  | tryResize p request => exact Step.of_works hs (works_tryResize p request h)
  | resize p raw => exact Step.of_works hs (works_resize p raw h)
  | clearPlane p raw chroma => exact Step.of_touches hs (touches_clearPlane p raw chroma h)
  | clear p raw => exact Step.of_touches hs (touches_clear p raw h)
  | readPacked p bytes => exact Step.of_touches hs (touches_readPacked p bytes h)
  | writePacked p =>
    rw [Action.apply, Action.perform, discard_state]
    exact Step.of_works hs (works_writePacked p h)
  | copy m p raw =>
    rw [Action.apply, Action.perform, discard_state]
    exact step_copy hs (sound rfl) p raw
  | replace m p raw => exact step_replace hs (sound rfl) p raw
  | resizeOrReplace m p raw =>
    rw [Action.apply, Action.perform, discard_state]
    exact step_resizeOrReplace hs (sound rfl) p raw

theorem Sound.apply (hs : Sound makers h) (a : Action) (ha : a.Legal) :
    Sound (makers ++ a.makers h) (a.apply h) := by
  -- the sizes tell whether a storage came in
  obtain ht | ⟨m, hm, ht⟩ := (step_apply a ha hs).sound
  · have hsize : (a.apply h).storages.size = h.storages.size := ht.size.trans hs.size.symm
    rwa [Action.makers, if_pos hsize, List.append_nil]
  · have hsize : (a.apply h).storages.size ≠ h.storages.size := by
      rw [ht.size, hs.size, List.length_append]
      simp
    rwa [Action.makers, if_neg hsize, hm]

theorem Reachable.sound (hr : Reachable makers h) : Sound makers h := by
  induction hr with
  | empty => exact Sound.empty
  | step a ha _ ih => exact ih.apply a ha

end

/-! ### A small run -/

def grayConfig : Config := { format := .preset "gray8", hprepend := 1, align := 4 }

def grayManager : Manager := .build .gray8 grayConfig

theorem unwrapped_grayManager : grayManager.Unwrapped :=
  ⟨grayConfig, Word.maxSigned, ⟨by constructor <;> decide +kernel, by decide +kernel, by decide +kernel⟩,
    rfl⟩

theorem exact_grayManager : grayManager.Exact := unwrapped_grayManager.exact

theorem legal_of_gray {a : Action} (ha : a.manager? = some grayManager ∨ a.manager? = none) :
    a.Legal := by
  intro m hm
  rcases ha with h | h
  · obtain rfl := Option.some.inj (h.symm.trans hm)
    have hconfig : Manager.ofConfig grayConfig = .ok grayManager := rfl
    exact .ofConfig Word.maxSigned hconfig
  · rw [h] at hm
    cases hm

def sharedGray : Heap := applyAll [.alloc grayManager 2 1, .share ⟨0⟩] .empty

theorem reachable_sharedGray : Reachable [grayManager] sharedGray :=
  have hm : (Action.alloc grayManager 2 1).makers .empty ++ (Action.share ⟨0⟩).makers
      ((Action.alloc grayManager 2 1).apply .empty) = [grayManager] := by decide +kernel
  hm ▸ .step (.share ⟨0⟩) (legal_of_gray (.inr rfl))
    (.step (.alloc grayManager 2 1) (legal_of_gray (.inl rfl)) .empty)

end Heap

end Planar

import Planar.Proofs.Trace
set_option autoImplicit false

/-!
Mappings and their releases. Whatever a call on pictures comes to, each mapping that was made is
released once, before the same picture is asked for another one. This only takes pictures that keep
their sizes and layouts during the call, for a region is made absolute again when it is released.
-/

namespace Planar

namespace Call

def number : Call → Nat
  | .map number .. | .unmap number .. => number

@[simp] theorem number_map (number : Nat) (chroma : String) (region : Region) (done : Bool) :
    (map number chroma region done).number = number := rfl

@[simp] theorem number_unmap (number : Nat) (chroma : String) (region : Region) :
    (unmap number chroma region).number = number := rfl

/-- The calls on one picture in their order: a mapping is refused, or the next call releases it. -/
inductive Paired : List Call → Prop where
  | nil : Paired []
  | refused (number : Nat) (chroma : String) (region : Region) {rest : List Call} (h : Paired rest) :
    Paired (.map number chroma region false :: rest)
  | released (number : Nat) (chroma : String) (region : Region) {rest : List Call}
    (h : Paired rest) : Paired (.map number chroma region true :: .unmap number chroma region :: rest)

theorem Paired.append {before after : List Call} (hb : Paired before) (ha : Paired after) :
    Paired (before ++ after) := by
  induction hb with
  | nil => exact ha
  | refused number chroma region _ ih => exact .refused number chroma region ih
  | released number chroma region _ ih => exact .released number chroma region ih

end Call

variable {σ β μ α γ : Type}

/-! ### States of a run -/

namespace Traced

variable {s t u v : Traced σ}

/-- No state that was seen is forgotten, and the one that is reached is seen too. -/
def Grows (s t : Traced σ) : Prop := s.seen ⊆ t.seen ∧ (s.now ∈ s.seen → t.now ∈ t.seen)

instance : Op.Tracking (Grows (σ := σ)) where
  refl _ := ⟨List.Subset.refl _, id⟩
  trans ht hu := ⟨List.Subset.trans ht.1 hu.1, hu.2 ∘ ht.2⟩

theorem grows_move (now : σ) (t : Traced σ) : Grows t (t.move now) :=
  ⟨List.subset_cons_self now t.seen, fun _ => List.mem_cons_self⟩

def Balanced (s t : Traced σ) : Prop :=
  ∃ more, t.calls = s.calls ++ more ∧ ∀ n, Call.Paired (more.filter (·.number = n))

theorem balanced_of_calls (h : t.calls = s.calls) : Balanced s t :=
  ⟨[], by simpa using h, fun _ => .nil⟩

instance : Op.Tracking (Balanced (σ := σ)) where
  refl _ := balanced_of_calls rfl
  trans := by
    rintro s t u ⟨more, ht, hmore⟩ ⟨last, hu, hlast⟩
    refine ⟨more ++ last, by rw [hu, ht, List.append_assoc], fun n => ?_⟩
    rw [List.filter_append]
    exact (hmore n).append (hlast n)

def Spares (number : Nat) (s t : Traced σ) : Prop :=
  ∃ more, t.calls = s.calls ++ more ∧ ∀ call ∈ more, call.number ≠ number

theorem spares_of_calls (number : Nat) (h : t.calls = s.calls) : Spares number s t :=
  ⟨[], by simpa using h, nofun⟩

instance (number : Nat) : Op.Tracking (Spares (σ := σ) number) where
  refl _ := spares_of_calls number rfl
  trans := by
    rintro s t u ⟨more, ht, hmore⟩ ⟨last, hu, hlast⟩
    exact ⟨more ++ last, by rw [hu, ht, List.append_assoc],
      fun call hcall => (List.mem_append.mp hcall).elim (hmore call) (hlast call)⟩

theorem balanced_of_released {number : Nat} {chroma : String} {region : Region}
    (ht : t.calls = s.calls ++ [.map number chroma region true]) (hb : Balanced t u)
    (hs : Spares number t u) (hv : v.calls = u.calls ++ [.unmap number chroma region]) :
    Balanced s v := by
  obtain ⟨more, hu, hmore⟩ := hb
  obtain ⟨same, hu', hsame⟩ := hs
  obtain rfl := List.append_cancel_left (hu.symm.trans hu')
  refine ⟨.map number chroma region true :: more ++ [.unmap number chroma region], ?_, fun n => ?_⟩
  · rw [hv, hu, ht]
    simp
  · by_cases hn : number = n
    · subst hn
      have hnone : more.filter (·.number = number) = [] := by simpa using hsame
      simpa [hnone] using Call.Paired.released number chroma region .nil
    · simpa [hn] using hmore n

theorem balanced_of_refused {number : Nat} {chroma : String} {region : Region}
    (ht : t.calls = s.calls ++ [.map number chroma region false]) : Balanced s t := by
  refine ⟨_, ht, fun n => ?_⟩
  by_cases hn : number = n
  · simpa [hn] using Call.Paired.refused number chroma region .nil
  · simpa [hn] using Call.Paired.nil

section

variable [Buffers σ β]

theorem Steady.mono (ht : t.Steady) (hg : Grows s t) : s.Steady :=
  fun u hu v hv => ht u (hg.1 hu) v (hg.1 hv)

theorem Steady.normalizeRegion (ht : t.Steady) (hg : Grows s t) (hs : s.now ∈ s.seen) (b : Tagged β)
    (chroma : String) (raw : RawRegion) :
    normalizeRegion b chroma raw t = normalizeRegion b chroma raw s := by
  obtain ⟨hsize, hdesc⟩ := ht s.now (hg.1 hs) t.now (hg.2 hs) b.buffer
  unfold Planar.normalizeRegion
  simp only [Buffers.size, Buffers.planeDesc, hsize, hdesc]

end

end Traced

/-! ### Calls that release what they map -/

namespace Op

open Traced

variable [Buffers σ β] {x : Op (Traced σ) α} {f : α → Op (Traced σ) γ}

/-- If the operation ends and nothing changes its size or layout on the way, then all is paired. -/
structure Closes (op : Op (Traced σ) α) : Prop where
  grows : ∀ s, Grows s (op s).2
  balanced : ∀ s, s.now ∈ s.seen → ¬ op.Crashes s → (op s).2.Steady → Balanced s (op s).2

theorem closes_of_calls (hg : ∀ s, Grows s (x s).2) (h : ∀ s, (x s).2.calls = s.calls) : Closes x :=
  ⟨hg, fun s _ _ _ => balanced_of_calls (h s)⟩

theorem closes_of_state (h : ∀ s, (x s).2 = s) : Closes x := by
  refine closes_of_calls (fun s => ?_) fun s => congrArg Traced.calls (h s)
  rw [h]
  exact Tracking.refl s

theorem closes_ask (question : Traced σ → Except Stop α) : Closes (ask question) :=
  closes_of_state fun _ => rfl

theorem closes_pure (a : α) : Closes (pure a : Op (Traced σ) α) :=
  closes_of_state fun _ => rfl

theorem closes_lift (check : Except Fault α) : Closes (liftM check : Op (Traced σ) α) :=
  closes_of_state fun s => by rw [lift_run]

theorem closes_liftStop (check : Except Stop α) : Closes (liftM check : Op (Traced σ) α) :=
  closes_of_state fun s => by rw [liftStop_run]

theorem closes_commit (b : Tagged β) (chroma : String) (region : Region) (view : View) :
    Closes (update fun t : Traced σ => Buffers.commit b chroma region view t) :=
  closes_of_calls (fun s => grows_move _ s) fun _ => rfl

theorem Closes.bind (hx : Closes x) (hf : ∀ a, Closes (f a)) : Closes (x >>= f) := by
  refine ⟨fun s => bind_related (hx.grows s) fun a t _ => (hf a).grows t, fun s hs hc hsteady => ?_⟩
  cases h : x s with
  | mk result t =>
    have hg := hx.grows s
    have hb := hx.balanced s hs (fun hcrash => hc (hcrash.bind f))
    rw [h] at hg hb
    cases result with
    | error stop =>
      rw [bind_of_error h] at hsteady ⊢
      exact hb hsteady
    | ok a =>
      rw [crashes_bind_of_ok h] at hc
      rw [bind_of_ok h] at hsteady ⊢
      exact Tracking.trans (hb (hsteady.mono ((hf a).grows t)))
        ((hf a).balanced t (hg.2 hs) hc hsteady)

theorem Closes.check {c : Prop} [Decidable c] {stop : Stop} {k : PUnit → Op (Traced σ) α}
    (hx : Closes x) : Closes (if c then (throw stop : Op (Traced σ) PUnit) >>= k else x) := by
  split
  · exact closes_of_state fun _ => rfl
  · exact hx

theorem Closes.mapFault (hx : Closes x) (why : Fault → Fault) : Closes (mapFault why x) := by
  have hattempt : Closes x.attempt := by
    refine ⟨fun s => attempt_related (hx.grows s), fun s hs hc hsteady => ?_⟩
    rw [attempt_state] at hsteady ⊢
    exact hx.balanced s hs (mt crashes_attempt.mpr hc) hsteady
  refine hattempt.bind fun result => ?_
  cases result with
  | ok a => exact closes_pure a
  | error fault => exact closes_of_state fun _ => rfl

theorem closes_forM {f : α → Op (Traced σ) PUnit} (hf : ∀ a, Closes (f a)) (as : List α) :
    Closes (as.forM f) := by
  induction as with
  | nil => exact closes_pure PUnit.unit
  | cons a as ih => exact (hf a).bind fun _ => ih

theorem closes_foldlM {f : γ → α → Op (Traced σ) γ} (hf : ∀ c a, Closes (f c a)) (as : List α)
    (c : γ) : Closes (as.foldlM f c) := by
  induction as generalizing c with
  | nil => exact closes_pure c
  | cons a as ih =>
    rw [List.foldlM_cons]
    exact (hf c a).bind ih

structure Records (x : Op (Traced σ) α) (place : Traced σ → Except Stop Region)
    (call : Region → Bool → Call) : Prop where
  grows : ∀ s, Grows s (x s).2
  astray : ∀ {s stop}, place s = .error stop → x s = (.error stop, s)
  placed : ∀ {s region}, place s = .ok region →
    (x s).2.calls = s.calls ++ [call region (x s).1.isOk]

theorem records_of_region (region : Region) (op : Op σ α) (call : Region → Bool → Call) :
    Records (record op (call region)) (fun _ => .ok region) call where
  grows s := grows_move _ s
  astray h := nomatch h
  placed h := by
    cases h
    rfl

theorem Records.place {place : Traced σ → Except Stop Region} {call : Region → Bool → Call}
    {f : Region → Op (Traced σ) α} (hf : ∀ region, Records (f region) (fun _ => .ok region) call) :
    Records (ask place >>= f) place call where
  grows s := bind_related (ask_related place) fun region t _ => (hf region).grows t
  astray h := by rw [bind_run, ask_run, h]
  placed {s region} h := by
    rw [bind_run, ask_run, h]
    exact (hf region).placed rfl

theorem Records.map {place : Traced σ → Except Stop Region} {call : Region → Bool → Call}
    (hx : Records x place call) (g : α → γ) : Records (x >>= fun a => pure (g a)) place call where
  grows s := by
    rw [map_state]
    exact hx.grows s
  astray h := bind_of_error (hx.astray h)
  placed {s region} h := by
    have hcalls := hx.placed h
    rw [map_state, hcalls, bind_run]
    cases x s with
    | mk result t => cases result <;> rfl

theorem Records.spares {place : Traced σ → Except Stop Region} {call : Region → Bool → Call} {k : Nat}
    (hx : Records x place call) (hn : ∀ region done, (call region done).number ≠ k) (s : Traced σ) :
    Spares k s (x s).2 := by
  cases h : place s with
  | error stop =>
    rw [hx.astray h]
    exact Tracking.refl s
  | ok region => exact ⟨_, hx.placed h, by simpa using hn region _⟩

section

variable {place : Traced σ → Except Stop Region} {k : Nat} {chroma : String}
  {y : Op (Traced σ) Unit} {s t u : Traced σ}

theorem Records.balanced_of_error (hx : Records x place (.map k chroma)) {stop : Stop}
    (h : x s = (.error stop, t)) : Balanced s t := by
  cases hplace : place s with
  | error stop' =>
    cases (hx.astray hplace).symm.trans h
    exact Tracking.refl s
  | ok region =>
    have hcalls := hx.placed hplace
    rw [h] at hcalls
    exact balanced_of_refused hcalls

variable (hx : Records x place (.map k chroma)) (hy : Records y place fun region _ => .unmap k chroma region)
  (hp : ∀ s t : Traced σ, t.Steady → Grows s t → s.now ∈ s.seen → place t = place s)

include hx hy hp

theorem Records.balanced (hs : s.now ∈ s.seen) {a : α} (h : x s = (.ok a, t)) (hb : Balanced t u)
    (hspares : Spares k t u) (hg : Grows t u) (hsteady : (y u).2.Steady) : Balanced s (y u).2 := by
  cases hplace : place s with
  | error stop => cases (hx.astray hplace).symm.trans h
  | ok region =>
    have hmap := hx.placed hplace
    have hgrows := hx.grows s
    rw [h] at hmap hgrows
    have hagain := hp s u (hsteady.mono (hy.grows u)) (Tracking.trans hgrows hg) hs
    exact balanced_of_released hmap hb hspares (hy.placed (hagain.trans hplace))

theorem closes_closing (body : α → Op (Traced σ) Unit) (hbody : ∀ a, Closes (body a))
    (hspares : ∀ a s, Spares k s (body a s).2) : Closes (x >>= fun a => closing (body a) y) where
  grows s := bind_related (hx.grows s) fun a t _ => closing_related ((hbody a).grows t) hy.grows
  balanced s hs hc hsteady := by
    cases h : x s with
    | mk result t =>
      cases result with
      | error stop =>
        rw [bind_of_error h]
        exact hx.balanced_of_error h
      | ok a =>
        have hgrows := hx.grows s
        rw [h] at hgrows
        rw [crashes_bind_of_ok h] at hc
        have hends : ¬ (body a).Crashes t := mt (fun hcrash => hcrash.closing y) hc
        rw [bind_of_ok h, closing_state hends] at hsteady ⊢
        have hb := (hbody a).balanced t (hgrows.2 hs) hends (hsteady.mono (hy.grows _))
        exact hx.balanced hy hp hs h hb (hspares a t) ((hbody a).grows t) hsteady

theorem closes_around (body : α → Op (Traced σ) γ) (hg : ∀ a s, Grows s (body a s).2)
    (hcalls : ∀ a s, (body a s).2.calls = s.calls)
    (hends : ∀ a s why, (body a s).1 ≠ .error (.fault why)) {δ : Type} (g : γ → δ) :
    Closes (x >>= fun a => body a >>= fun c => y >>= fun _ => pure (g c)) where
  grows s := by
    refine bind_related (hx.grows s) fun a t _ => bind_related (hg a t) fun c u _ => ?_
    rw [map_state]
    exact hy.grows u
  balanced s hs hc hsteady := by
    cases h : x s with
    | mk result t =>
      cases result with
      | error stop =>
        rw [bind_of_error h]
        exact hx.balanced_of_error h
      | ok a =>
        rw [crashes_bind_of_ok h] at hc
        have hgrows := hg a t
        have hsame := hcalls a t
        have hfault := hends a t
        rw [bind_of_ok h] at hsteady ⊢
        cases hr : body a t with
        | mk result u =>
          rw [hr] at hgrows hsame hfault
          cases result with
          | error stop =>
            cases stop with
            | fault why => exact absurd rfl (hfault why)
            | crash => exact absurd (Crashes.bind (congrArg Prod.fst hr) _) hc
          | ok c =>
            rw [bind_of_ok hr, map_state] at hsteady ⊢
            exact hx.balanced hy hp hs h (balanced_of_calls hsame) (spares_of_calls k hsame) hgrows hsteady

end

end Op

/-! ### Operations -/

open Op Traced

section

variable [Buffers σ β] (b c : Tagged β) (chroma : String) (raw : RawRegion)

theorem records_mapWrite (region : Region) :
    Records (σ := σ) (Buffers.mapWrite b chroma region) (fun _ => .ok region) (.map b.number chroma) :=
  records_of_region region _ _

theorem records_unmap (region : Region) : Records (σ := σ) (Buffers.unmap b chroma region)
    (fun _ => .ok region) fun region _ => .unmap b.number chroma region :=
  records_of_region region _ fun region _ => .unmap b.number chroma region

theorem records_planeRead : Records (σ := σ) (planeRead b chroma raw) (normalizeRegion b chroma raw)
    (.map b.number chroma) :=
  .place fun region => records_of_region region _ _

theorem records_planeWrite : Records (σ := σ) (planeWrite b chroma raw)
    (normalizeRegion b chroma raw) (.map b.number chroma) :=
  .place fun region => (records_mapWrite b chroma region).map (region, ·)

theorem records_planeUnmap : Records (σ := σ) (planeUnmap b chroma raw)
    (normalizeRegion b chroma raw) fun region _ => .unmap b.number chroma region :=
  .place (records_unmap b chroma)

theorem closes_fill (rows : Except Stop View) (region : Region) :
    Closes (liftM rows >>= fun filled =>
      update fun t : Traced σ => Buffers.commit b chroma region filled t) :=
  (closes_liftStop rows).bind fun filled => closes_commit b chroma region filled

theorem spares_fill (rows : Except Stop View) (region : Region) (number : Nat) (s : Traced σ) :
    Spares number s ((liftM rows >>= fun filled =>
      update fun t : Traced σ => Buffers.commit b chroma region filled t) s).2 :=
  bind_related (liftStop_related rows) fun _ _ _ => spares_of_calls number rfl

theorem closes_clearPlane : Closes (σ := σ) (clearPlane b raw chroma) := by
  refine (closes_ask _).bind fun region => (closes_ask _).bind fun _ => (closes_lift _).bind fun _ => ?_
  exact closes_closing (records_mapWrite b chroma region) (records_unmap b chroma region)
    (fun _ _ _ _ _ => rfl) _ (fun _ => closes_fill b chroma _ region)
    fun _ => spares_fill b chroma _ region b.number

theorem closes_clear : Closes (σ := σ) (clear b raw) :=
  (closes_ask _).bind fun chromas => closes_forM (fun chroma => closes_clearPlane b chroma raw) chromas

theorem visitedRows_ne_fault (v : View) (why : Fault) : v.visitedRows ≠ .error (.fault why) :=
  Stop.mapM_ne_error _ fun _ _ => Stop.ofOption_ne_fault _ why

theorem closes_packPlane (packed : List (List UInt8)) :
    Closes (σ := σ) (packPlane b packed chroma) := by
  refine closes_around (records_planeRead b chroma .full) (records_planeUnmap b chroma .full)
    (fun s t ht hg hs => ht.normalizeRegion hg hs b chroma .full) _ ?_ ?_ ?_ (packed ++ ·)
  · exact fun v s => liftStop_related v.visitedRows
  · exact fun _ s => by rw [liftStop_run]
  · exact fun v s why => by
      rw [liftStop_run]
      exact visitedRows_ne_fault v why

theorem closes_writePacked : Closes (σ := σ) (writePacked b) :=
  (closes_ask _).bind fun _ => .check <| (closes_ask _).bind fun chromas =>
    (closes_foldlM (fun packed chroma => closes_packPlane b chroma packed) chromas []).bind
      fun _ => closes_pure _

theorem unpackRows_ne_fault (v : View) (bytes : List UInt8) (why : Fault) :
    unpackRows v bytes ≠ .error (.fault why) := by
  refine Stop.foldlM_ne_error _ (fun state y _ => ?_) _
  exact Stop.bind_ne_error (Stop.ofOption_ne_fault _ why) fun w _ => nofun

theorem closes_unpackPlane (bytes : List UInt8) : Closes (σ := σ) (unpackPlane b bytes chroma) := by
  have heq : (unpackPlane b bytes chroma : Op (Traced σ) _) = planeWrite b chroma .full >>= fun found =>
      (liftM (unpackRows found.2 bytes) >>= fun filled =>
        update (Buffers.commit b chroma found.1 filled.1) >>= fun _ => pure filled.2) >>= fun rest =>
          planeUnmap b chroma .full >>= fun _ => pure rest := by
    simp only [bind_assoc, pure_bind]
    rfl
  rw [heq]
  refine closes_around (records_planeWrite b chroma .full) (records_planeUnmap b chroma .full)
    (fun s t ht hg hs => ht.normalizeRegion hg hs b chroma .full) _ ?_ ?_ ?_ id
  · exact fun found s => bind_related (liftStop_related _) fun filled t _ => grows_move _ t
  · exact fun found s => by
      rw [bind_run, liftStop_run]
      cases unpackRows found.2 bytes <;> rfl
  · exact fun found s why => by
      rw [bind_run, liftStop_run]
      cases hrows : unpackRows found.2 bytes with
      | ok filled => exact nofun
      | error stop =>
        exact fun h => unpackRows_ne_fault found.2 bytes why
          (hrows.trans (congrArg Except.error (Except.error.inj h)))

theorem closes_readPacked (bytes : List UInt8) : Closes (σ := σ) (readPacked b bytes) :=
  (closes_ask _).bind fun _ => .check <| (closes_ask _).bind fun chromas =>
    (closes_foldlM (fun left chroma => closes_unpackPlane b chroma left) chromas bytes).bind
      fun _ => closes_pure ()

theorem closes_copyPlane (overlap : Overlap) (hn : c.number ≠ b.number) :
    Closes (σ := σ) (copyPlane b c overlap chroma) := by
  -- the two pictures have different numbers, so that the mapping of one is not in the way of the
  -- other
  have hfixed (d : Tagged β) (raw : RawRegion) (s t : Traced σ) (ht : t.Steady) (hg : Grows s t)
      (hs : s.now ∈ s.seen) := ht.normalizeRegion hg hs d chroma raw
  refine (closes_closing (records_planeRead b chroma _) (records_planeUnmap b chroma _) (hfixed b _) _
    (fun input => ?_) fun input s => ?_).mapFault _
  · exact closes_closing (records_planeWrite c chroma _) (records_planeUnmap c chroma _) (hfixed c _) _
      (fun found => closes_fill c chroma (input.copyRows found.2) found.1)
      fun found => spares_fill c chroma (input.copyRows found.2) found.1 c.number
  · refine bind_related ((records_planeWrite c chroma _).spares (fun _ _ => hn) s) fun found t _ => ?_
    exact closing_related (spares_fill c chroma (input.copyRows found.2) found.1 b.number t)
      ((records_planeUnmap c chroma _).spares fun _ _ => hn)

theorem closes_copyInto (request : ResizeRequest) (hn : c.number ≠ b.number) :
    Closes (σ := σ) (copyInto b c request chroma) :=
  (closes_ask _).bind fun _ => ((closes_ask _).mapFault _).bind fun _ => (closes_lift _).bind fun _ =>
    .check (closes_copyPlane b c chroma request.overlap hn)

end

theorem Op.Closes.orElseUndo [Buffers σ β] {op : Op (Traced σ) α} (h : Closes op)
    {undo : Traced σ → Traced σ} {s : Traced σ} (hs : s.now ∈ s.seen)
    (hc : ¬ (Op.orElseUndo op undo).Crashes s) (hsteady : (Op.orElseUndo op undo s).2.Steady)
    (hseen : ∀ t, (undo t).seen = t.seen) (hcalls : ∀ t, (undo t).calls = t.calls) :
    Balanced s (Op.orElseUndo op undo s).2 := by
  have hb := h.balanced s hs (mt crashes_orElseUndo.mpr hc)
  cases hr : op s with
  | mk result t =>
    rw [hr] at hb
    cases result with
    | ok a =>
      rw [orElseUndo_of_ok hr] at hsteady ⊢
      exact hb hsteady
    | error stop =>
      rw [orElseUndo_of_error hr] at hsteady ⊢
      simp only [Steady, hseen] at hsteady
      obtain ⟨more, heq, hpaired⟩ := hb hsteady
      exact ⟨more, (hcalls t).trans heq, hpaired⟩

section

variable [Buffers σ β] [Allocator σ μ β] {b c : Tagged β} {s t : Traced σ}

theorem alloc_eq_ok {manager : μ} {hsize vsize : Nat}
    (h : Allocator.alloc manager hsize vsize s = (.ok c, t)) :
    c.number = s.fresh ∧ t.now ∈ t.seen ∧ t.calls = s.calls := by
  have hresult : Except.map (⟨·, s.fresh⟩) (Allocator.alloc manager hsize vsize s.now).1 = .ok c :=
    congrArg Prod.fst h
  obtain rfl : (Allocator.alloc manager hsize vsize s).2 = t := congrArg Prod.snd h
  refine ⟨?_, List.mem_singleton_self _, rfl⟩
  cases halloc : (Allocator.alloc manager hsize vsize s.now).1 with
  | error stop =>
    rw [halloc] at hresult
    cases hresult
  | ok d =>
    rw [halloc] at hresult
    cases hresult
    rfl

theorem balanced_copy (manager : μ) (raw : RawResize) (hb : b.number < s.fresh)
    (hc : ¬ (copy manager b raw).Crashes s) (hsteady : (copy manager b raw s).2.Steady) :
    Balanced s (copy manager b raw s).2 := by
  unfold copy at hc hsteady ⊢
  cases hn : normalizeResize b raw s with
  | error stop =>
    rw [bind_run, ask_run, hn]
    exact balanced_of_calls rfl
  | ok request =>
    have hask : ask (normalizeResize b raw) s = (.ok request, s) := by rw [ask_run, hn]
    rw [crashes_bind_of_ok hask] at hc
    rw [bind_of_ok hask] at hsteady ⊢
    cases ha : mapFault (asRefusal request.newHsize request.newVsize)
        (Allocator.alloc manager request.newHsize request.newVsize) s with
    | mk result t =>
      cases result with
      | error stop =>
        rw [bind_of_error ha]
        have hstate := congrArg Prod.snd ha
        rw [mapFault_state] at hstate
        exact balanced_of_calls (hstate ▸ rfl)
      | ok c =>
        obtain ⟨hnumber, ht, hcalls⟩ := alloc_eq_ok (mapFault_eq_ok.mp ha)
        have hne : c.number ≠ b.number := by omega
        rw [crashes_bind_of_ok ha] at hc
        rw [bind_of_ok ha] at hsteady ⊢
        refine Tracking.trans (balanced_of_calls hcalls) ?_
        refine Closes.orElseUndo ?_ ht hc hsteady (fun _ => rfl) fun _ => rfl
        exact (closes_ask _).bind fun _ => .check <| (closes_ask _).bind fun chromas =>
          (closes_forM (fun chroma => closes_copyInto b c chroma request hne) chromas).bind
            fun _ => closes_pure c

end

/-! ### All of them -/

inductive Access (μ : Type) where
  | clearPlane (raw : RawRegion) (chroma : String)
  | clear (raw : RawRegion)
  | readPacked (bytes : List UInt8)
  | writePacked
  | copy (manager : μ) (raw : RawResize)
  deriving DecidableEq, Repr

namespace Access

variable [Buffers σ β] [Allocator σ μ β]

def perform (b : β) : Access μ → Op σ Unit
  | .clearPlane raw chroma => Planar.clearPlane b raw chroma
  | .clear raw => Planar.clear b raw
  | .readPacked bytes => Planar.readPacked b bytes
  | .writePacked => do let _ ← Planar.writePacked b
  | .copy manager raw => do let _ ← Planar.copy manager b raw

/-- The call with all that it calls on record. The picture has the number zero, and a copy of it would
have the number one. -/
def watch (a : Access μ) (b : β) (s : σ) : Except Stop Unit × Traced σ :=
  a.perform (Tagged.mk b 0) (.start s)

theorem erases_perform (b : Tagged β) (a : Access μ) :
    Op.Erases (σ := σ) (a.perform b) (a.perform b.buffer) id := by
  cases a with
  | clearPlane raw chroma => exact erases_clearPlane b chroma raw
  | clear raw => exact erases_clear b raw
  | readPacked bytes => exact erases_readPacked b bytes
  | writePacked => exact (erases_writePacked b).bind fun _ => Op.erases_pure () id
  | copy manager raw => exact (erases_copy manager b raw).bind fun _ => Op.erases_pure () id

theorem perform_eq_watch (a : Access μ) (b : β) (s : σ) :
    a.perform b s = ((a.watch b s).1, (a.watch b s).2.now) := by
  have h := erases_perform (Tagged.mk b 0) a (Traced.start s)
  rw [Except.map_id] at h
  exact h

theorem balanced_perform (a : Access μ) {b : Tagged β} {s : Traced σ} (hs : s.now ∈ s.seen)
    (hb : b.number < s.fresh) (hc : ¬ (a.perform b).Crashes s) (hsteady : (a.perform b s).2.Steady) :
    Balanced s (a.perform b s).2 := by
  cases a with
  | clearPlane raw chroma => exact (closes_clearPlane b chroma raw).balanced s hs hc hsteady
  | clear raw => exact (closes_clear b raw).balanced s hs hc hsteady
  | readPacked bytes => exact (closes_readPacked b bytes).balanced s hs hc hsteady
  | writePacked =>
    exact ((closes_writePacked b).bind fun _ => closes_pure ()).balanced s hs hc hsteady
  | copy manager raw =>
    have hstate : ((copy manager raw).perform b s).2 = (Planar.copy manager b raw s).2 := map_state
    rw [hstate] at hsteady ⊢
    exact balanced_copy manager raw hb (mt crashes_map.mpr hc) hsteady

/-- A call that ends has released what it mapped. -/
theorem paired_watch (a : Access μ) (b : β) (s : σ) (hc : (a.watch b s).1 ≠ .error .crash)
    (hsteady : (a.watch b s).2.Steady) (n : Nat) :
    Call.Paired ((a.watch b s).2.calls.filter (·.number = n)) := by
  have hstart : (Traced.start s).now ∈ (Traced.start s).seen := List.mem_singleton_self s
  obtain ⟨more, hcalls, hpaired⟩ :=
    a.balanced_perform (b := Tagged.mk b 0) hstart Nat.zero_lt_one hc hsteady
  have heq : (a.watch b s).2.calls = more := hcalls
  exact heq ▸ hpaired n

end Access

end Planar

import Planar.Buffer.Clear
import Planar.Buffer.Copy
import Planar.Buffer.Packed
import Planar.Proofs.Crash
set_option autoImplicit false

/-!
Calls on record. The pictures of any maker can be watched: each gets a number, and what is mapped and
released is written down. No operation can tell, for it ends as it does on the pictures themselves.
-/

namespace Planar

inductive Call where
  | map (number : Nat) (chroma : String) (region : Region) (done : Bool)
  | unmap (number : Nat) (chroma : String) (region : Region)
  deriving DecidableEq, Repr

structure Tagged (β : Type) where
  buffer : β
  number : Nat

structure Traced (σ : Type) where
  now : σ
  /-- The states since the last allocation. A picture that is given up makes no new one. -/
  seen : List σ
  calls : List Call
  /-- The number of the next allocation. -/
  fresh : Nat

variable {σ β μ α α' γ γ' δ δ' : Type}

namespace Traced

def start (s : σ) : Traced σ := ⟨s, [s], [], 1⟩

def move (now : σ) (t : Traced σ) : Traced σ := { t with now, seen := now :: t.seen }

def record (op : Op σ α) (call : Bool → Call) : Op (Traced σ) α := fun t =>
  ((op t.now).1, { t.move (op t.now).2 with calls := t.calls ++ [call (op t.now).1.isOk] })

instance [Buffers σ β] : Buffers (Traced σ) (Tagged β) where
  size b t := Buffers.size b.buffer t.now
  planes b t := Buffers.planes b.buffer t.now
  planeDesc b chroma t := Buffers.planeDesc b.buffer chroma t.now
  refCount b t := Buffers.refCount b.buffer t.now
  mapRead b chroma region :=
    record (Buffers.mapRead b.buffer chroma region) (.map b.number chroma region)
  mapWrite b chroma region :=
    record (Buffers.mapWrite b.buffer chroma region) (.map b.number chroma region)
  commit b chroma region view t := t.move (Buffers.commit b.buffer chroma region view t.now)
  unmap b chroma region :=
    record (Buffers.unmap b.buffer chroma region) fun _ => .unmap b.number chroma region
  tryResize b request t :=
    ((Buffers.tryResize b.buffer request t.now).1, t.move (Buffers.tryResize b.buffer request t.now).2)
  release b t := { t with now := Buffers.release b.buffer t.now }
  succeed b c t := { t with now := Buffers.succeed b.buffer c.buffer t.now }

instance [Buffers σ β] [Allocator σ μ β] : Allocator (Traced σ) μ (Tagged β) where
  alloc manager hsize vsize t :=
    let run := Allocator.alloc manager hsize vsize t.now
    (run.1.map (⟨·, t.fresh⟩), { t with now := run.2, seen := [run.2], fresh := t.fresh + 1 })

/-- No size and no layout has changed. -/
def Steady [Buffers σ β] (t : Traced σ) : Prop :=
  ∀ u ∈ t.seen, ∀ v ∈ t.seen, ∀ b : β, Buffers.size b v = Buffers.size b u ∧
    ∀ chroma, Buffers.planeDesc b chroma v = Buffers.planeDesc b chroma u

end Traced

/-! ### The same run -/

/-- What is watched ends like what is not. -/
def Op.Erases (op' : Op (Traced σ) α') (op : Op σ α) (f : α' → α) : Prop :=
  ∀ t, op t.now = ((op' t).1.map f, (op' t).2.now)

namespace Op

theorem erases_ask {question' : Traced σ → Except Stop α'} {question : σ → Except Stop α} {f : α' → α}
    (h : ∀ t, question t.now = (question' t).map f) : Erases (ask question') (ask question) f := by
  intro t
  simp [ask_run, h]

theorem erases_record (op : Op σ α) (call : Bool → Call) : Erases (Traced.record op call) op id := by
  intro t
  simp only [Traced.record, Traced.move, Except.map_id, id_eq]
  rfl

theorem erases_pure (a : α') (f : α' → α) :
    Erases (pure a : Op (Traced σ) α') (pure (f a)) f := fun _ => rfl

theorem erases_throw (stop : Stop) (f : α' → α) :
    Erases (throw stop : Op (Traced σ) α') (throw stop) f := fun _ => rfl

theorem erases_lift (check : Except Fault α) :
    Erases (liftM check : Op (Traced σ) α) (liftM check) id := by
  intro t
  cases check <;> rfl

theorem erases_liftStop (check : Except Stop α) :
    Erases (liftM check : Op (Traced σ) α) (liftM check) id := by
  intro t
  cases check <;> rfl

theorem erases_update {g' : Traced σ → Traced σ} {g : σ → σ} (h : ∀ t, g t.now = (g' t).now) :
    Erases (update g') (update g) id := by
  intro t
  simp [update_run, h]

theorem Erases.bind {x' : Op (Traced σ) α'} {x : Op σ α} {f : α' → α} (hx : Erases x' x f)
    {k' : α' → Op (Traced σ) γ'} {k : α → Op σ γ} {g : γ' → γ}
    (hk : ∀ a, Erases (k' a) (k (f a)) g) : Erases (x' >>= k') (x >>= k) g := by
  intro t
  rw [bind_run, bind_run, hx t]
  cases x' t with
  | mk result u =>
    cases result with
    | ok a => exact hk a u
    | error stop => rfl

theorem Erases.check {c : Prop} [Decidable c] {stop : Stop} {k' : PUnit → Op (Traced σ) α'}
    {k : PUnit → Op σ α} {x' : Op (Traced σ) α'} {x : Op σ α} {f : α' → α} (hx : Erases x' x f) :
    Erases (if c then (throw stop : Op (Traced σ) PUnit) >>= k' else x')
      (if c then (throw stop : Op σ PUnit) >>= k else x) f := by
  split
  · exact fun _ => rfl
  · exact hx

theorem Erases.attempt {op' : Op (Traced σ) α'} {op : Op σ α} {f : α' → α} (h : Erases op' op f) :
    Erases op'.attempt op.attempt (Except.map f) := by
  intro t
  have h := h t
  unfold Op.attempt
  cases hr : op' t with
  | mk result u =>
    rw [hr] at h
    cases result with
    | ok a => simp_all [Except.map]
    | error stop => cases stop <;> simp_all [Except.map]

theorem Erases.mapFault {op' : Op (Traced σ) α'} {op : Op σ α} {f : α' → α} (h : Erases op' op f)
    (why : Fault → Fault) : Erases (Op.mapFault why op') (Op.mapFault why op) f := by
  refine h.attempt.bind fun result => ?_
  cases result with
  | ok a => exact erases_pure a f
  | error stop => exact erases_throw _ f

theorem Erases.closing {body' release' : Op (Traced σ) Unit} {body release : Op σ Unit}
    (hb : Erases body' body id) (hr : Erases release' release id) :
    Erases (Op.closing body' release') (Op.closing body release) id := by
  refine hb.attempt.bind fun done => hr.attempt.bind fun released => ?_
  cases done with
  | error why => exact erases_throw _ id
  | ok _ =>
    cases released with
    | error why => exact erases_throw _ id
    | ok _ => exact erases_pure _ id

theorem Erases.orElseUndo {op' : Op (Traced σ) α'} {op : Op σ α} {f : α' → α} (h : Erases op' op f)
    {undo' : Traced σ → Traced σ} {undo : σ → σ} (hu : ∀ t, undo t.now = (undo' t).now) :
    Erases (Op.orElseUndo op' undo') (Op.orElseUndo op undo) f := by
  intro t
  have h := h t
  unfold Op.orElseUndo
  cases hr : op' t with
  | mk result u =>
    rw [hr] at h
    cases result <;> simp_all [Except.map]

theorem Erases.forM {f' : α → Op (Traced σ) PUnit} {f : α → Op σ PUnit} (as : List α)
    (h : ∀ a, Erases (f' a) (f a) id) : Erases (as.forM f') (as.forM f) id := by
  induction as with
  | nil => exact erases_pure _ id
  | cons a as ih => exact (h a).bind fun _ => ih

theorem Erases.foldlM {f' : γ → α → Op (Traced σ) γ} {f : γ → α → Op σ γ} (as : List α)
    (h : ∀ c a, Erases (f' c a) (f c a) id) (c : γ) :
    Erases (as.foldlM f' c) (as.foldlM f c) id := by
  induction as generalizing c with
  | nil => exact erases_pure _ id
  | cons a as ih =>
    rw [List.foldlM_cons, List.foldlM_cons]
    exact (h c a).bind fun d => ih d

end Op

/-! ### Operations -/

section

variable [Buffers σ β] (b c : Tagged β) (chroma : String) (raw : RawRegion)

theorem erases_planes : Op.Erases (Op.ask fun t : Traced σ => .ok (Buffers.planes b t))
    (Op.ask fun s => .ok (Buffers.planes b.buffer s)) id :=
  Op.erases_ask fun _ => rfl

theorem erases_planeDesc : Op.Erases (Op.ask fun t : Traced σ => Buffers.planeDesc b chroma t)
    (Op.ask (Buffers.planeDesc b.buffer chroma)) id :=
  Op.erases_ask fun _ => (congrFun Except.map_id _).symm

theorem erases_normalizeRegion : Op.Erases
    (Op.ask fun t : Traced σ => normalizeRegion b chroma raw t)
    (Op.ask (normalizeRegion b.buffer chroma raw)) id :=
  Op.erases_ask fun _ => (congrFun Except.map_id _).symm

theorem erases_commit (region : Region) (view : View) : Op.Erases
    (Op.update fun t : Traced σ => Buffers.commit b chroma region view t)
    (Op.update (Buffers.commit b.buffer chroma region view)) id :=
  Op.erases_update fun _ => rfl

theorem erases_planeRead : Op.Erases (σ := σ) (planeRead b chroma raw) (planeRead b.buffer chroma raw) id :=
  (erases_normalizeRegion b chroma raw).bind fun _ => Op.erases_record _ _

theorem erases_planeWrite : Op.Erases (σ := σ) (planeWrite b chroma raw) (planeWrite b.buffer chroma raw) id :=
  (erases_normalizeRegion b chroma raw).bind fun region =>
    (Op.erases_record _ _).bind fun view => Op.erases_pure (region, view) id

theorem erases_planeUnmap : Op.Erases (σ := σ) (planeUnmap b chroma raw) (planeUnmap b.buffer chroma raw) id :=
  (erases_normalizeRegion b chroma raw).bind fun _ => Op.erases_record _ _

theorem erases_clearPlane :
    Op.Erases (σ := σ) (clearPlane b raw chroma) (clearPlane b.buffer raw chroma) id :=
  (erases_normalizeRegion b chroma raw).bind fun region =>
    (erases_planeDesc b chroma).bind fun _ =>
      (Op.erases_lift _).bind fun _ =>
        (Op.erases_record _ _).bind fun _ =>
          .closing ((Op.erases_liftStop _).bind fun filled => erases_commit b chroma region filled)
            (Op.erases_record _ _)

theorem erases_clear : Op.Erases (σ := σ) (clear b raw) (clear b.buffer raw) id :=
  (erases_planes b).bind fun chromas => .forM chromas fun chroma => erases_clearPlane b chroma raw

theorem erases_packPlane (packed : List (List UInt8)) :
    Op.Erases (σ := σ) (packPlane b packed chroma) (packPlane b.buffer packed chroma) id :=
  (erases_planeRead b chroma .full).bind fun _ =>
    (Op.erases_liftStop _).bind fun rows =>
      (erases_planeUnmap b chroma .full).bind fun _ => Op.erases_pure (packed ++ rows) id

theorem erases_packedLen : Op.Erases (Op.ask fun t : Traced σ => packedLen b t)
    (Op.ask (packedLen b.buffer)) id :=
  Op.erases_ask fun _ => (congrFun Except.map_id _).symm

theorem erases_writePacked : Op.Erases (σ := σ) (writePacked b) (writePacked b.buffer) id :=
  (erases_packedLen b).bind fun _ => .check <|
    (erases_planes b).bind fun chromas =>
      (Op.Erases.foldlM chromas (fun packed chroma => erases_packPlane b chroma packed) []).bind
        fun rows => Op.erases_pure rows.flatten id

theorem erases_unpackPlane (bytes : List UInt8) :
    Op.Erases (σ := σ) (unpackPlane b bytes chroma) (unpackPlane b.buffer bytes chroma) id :=
  (erases_planeWrite b chroma .full).bind fun (region, _) =>
    (Op.erases_liftStop _).bind fun (filled, rest) =>
      (erases_commit b chroma region filled).bind fun _ =>
        (erases_planeUnmap b chroma .full).bind fun _ => Op.erases_pure rest id

theorem erases_readPacked (bytes : List UInt8) :
    Op.Erases (σ := σ) (readPacked b bytes) (readPacked b.buffer bytes) id :=
  (erases_packedLen b).bind fun _ => .check <|
    (erases_planes b).bind fun chromas =>
      (Op.Erases.foldlM chromas (fun left chroma => erases_unpackPlane b chroma left) bytes).bind
        fun _ => Op.erases_pure () id

theorem erases_copyPlane (overlap : Overlap) : Op.Erases (σ := σ) (copyPlane b c overlap chroma)
    (copyPlane b.buffer c.buffer overlap chroma) id := by
  refine ((erases_planeRead b chroma _).bind fun _ => .closing ?_ (erases_planeUnmap b chroma _)).mapFault _
  exact (erases_planeWrite c chroma _).bind fun (region, _) =>
    .closing ((Op.erases_liftStop _).bind fun copied => erases_commit c chroma region copied)
      (erases_planeUnmap c chroma _)

theorem erases_copyInto (request : ResizeRequest) : Op.Erases (σ := σ) (copyInto b c request chroma)
    (copyInto b.buffer c.buffer request chroma) id :=
  (erases_planeDesc b chroma).bind fun _ =>
    ((erases_planeDesc c chroma).mapFault _).bind fun _ =>
      (Op.erases_lift _).bind fun _ => .check (erases_copyPlane b c chroma request.overlap)

end

theorem erases_alloc [Buffers σ β] [Allocator σ μ β] (manager : μ) (hsize vsize : Nat) :
    Op.Erases (Allocator.alloc manager hsize vsize : Op (Traced σ) (Tagged β))
      (Allocator.alloc manager hsize vsize) Tagged.buffer := by
  intro t
  refine Prod.ext ?_ rfl
  change (Allocator.alloc manager hsize vsize t.now).1 = Except.map _ (Except.map _ _)
  cases (Allocator.alloc manager hsize vsize t.now).1 <;> rfl

theorem erases_copy [Buffers σ β] [Allocator σ μ β] (manager : μ) (b : Tagged β) (raw : RawResize) :
    Op.Erases (σ := σ) (copy manager b raw) (copy manager b.buffer raw) Tagged.buffer := by
  have hrequest : Op.Erases (Op.ask fun t : Traced σ => normalizeResize b raw t)
      (Op.ask (normalizeResize b.buffer raw)) id :=
    Op.erases_ask fun _ => (congrFun Except.map_id _).symm
  have hsize (c : Tagged β) : Op.Erases (Op.ask fun t : Traced σ => Buffers.size c t)
      (Op.ask (Buffers.size c.buffer)) id :=
    Op.erases_ask fun _ => (congrFun Except.map_id _).symm
  refine hrequest.bind fun request => ?_
  have halloc := erases_alloc (σ := σ) (β := β) manager request.newHsize request.newVsize
  refine (halloc.mapFault _).bind fun c => .orElseUndo ?_ fun _ => rfl
  exact (hsize c).bind fun _ => .check <| (erases_planes b).bind fun chromas =>
    (Op.Erases.forM chromas fun chroma => erases_copyInto b c chroma request).bind fun _ =>
      Op.erases_pure c _

end Planar

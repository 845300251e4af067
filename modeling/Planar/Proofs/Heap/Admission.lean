import Mathlib.Algebra.Group.Int.Defs
import Planar.Proofs.Heap.Agreement
import Planar.Proofs.Heap.Cropping
set_option autoImplicit false

/-!
Which copies succeed. The planes of the source need a place in the new picture, and the skips have to go
along their samples: the overlap can then be cut out of every plane on both sides. So a request that
spoils a resize in place spoils a copy as well.
-/

namespace Planar

theorem Storage.MadeBy.format_mem {s : Storage} {m : Manager} (hs : s.MadeBy m) {plane : PlaneStore}
    (hp : plane ∈ s.planes) : plane.format ∈ m.format.planes := by
  rw [← hs.planes]
  exact List.mem_map_of_mem hp

def Storage.SharesBytes (s : Storage) (request : ResizeRequest) : Prop :=
  ∀ plane ∈ s.planes, 0 < plane.desc.rowBytes request.overlap.src.hsize s.macropixel

namespace Heap

variable {makers : List Manager} {h t : Heap} {p q c : Handle} {src dst picture : Picture}
  {s s' : Storage} {m k : Manager} {f : PlaneFormat} {raw : RawResize} {request : ResizeRequest}

/-- The manager's pictures have a place for every plane of the storage, and the skips of the request
cut none of its samples. -/
structure CopyFits (k : Manager) (s : Storage) (request : ResizeRequest) : Prop where
  macropixel : k.format.macropixel = s.macropixel
  planes : ∀ plane ∈ s.planes, plane.format ∈ k.format.planes
  hskip : ∀ plane ∈ s.planes, (plane.desc.hsub : Int) ∣ request.hskip
  vskip : ∀ plane ∈ s.planes, (plane.desc.vsub : Int) ∣ request.vskip

/-! ### Requests -/

theorem signed_skips (hh : Holds h p src s m) (hn : normalizeResize p raw h = .ok request)
    (hskips : -2 ^ 62 < raw.hskip ∧ -2 ^ 62 < raw.vskip) :
    raw.hskip.natAbs ≤ Word.maxSigned ∧ raw.vskip.natAbs ≤ Word.maxSigned := by
  have hq := resolvesTo_of_normalize hh hn
  have hwithin := hq.within
  have hsigned := hq.signed
  simp only [Word.maxSigned] at hsigned hwithin ⊢
  omega

theorem signed_sizes (hh : Holds h p src s m) (hn : normalizeResize p raw h = .ok request)
    (hs : s.hsize < 2 ^ 62 ∧ s.vsize < 2 ^ 62)
    (hskips : -2 ^ 62 < raw.hskip ∧ -2 ^ 62 < raw.vskip)
    (hsizes : raw.newHsize ≤ Word.maxSigned ∧ raw.newVsize ≤ Word.maxSigned) :
    request.newHsize ≤ Word.maxSigned ∧ request.newVsize ≤ Word.maxSigned := by
  have hq := resolvesTo_of_normalize hh hn
  have hhsize := hq.newHsize
  have hvsize := hq.newVsize
  have hright := hh.held.right
  have hbottom := hh.held.bottom
  simp only [Region.right, Region.bottom, RawRegion.extent, Word.maxSigned] at *
  omega

theorem moveSigned_of_small (hh : Holds h p src s m) (hn : normalizeResize p raw h = .ok request)
    (hs : s.hsize < 2 ^ 62 ∧ s.vsize < 2 ^ 62) : src.MoveSigned request := by
  have hq := resolvesTo_of_normalize hh hn
  have hwithin := hq.within
  have hright := hh.held.right
  have hbottom := hh.held.bottom
  rw [← hq.hskip, ← hq.vskip] at hwithin
  simp only [Region.right, Region.bottom] at hright hbottom hwithin
  refine ⟨?_, ?_⟩
  · unfold Word.maxSigned
    omega
  · unfold Word.maxSigned
    omega

/-! ### Copies that succeed -/

theorem Joins.dvd_skips (ha : Apart h p q src dst s s' m k) (hf : f ∈ m.format.planes)
    (hf' : f ∈ k.format.planes) (hj : Joins h p q request.overlap f.chroma) :
    (f.hsub : Int) ∣ request.hskip ∧ (f.vsub : Int) ∣ request.vskip := by
  obtain ⟨-, hsrc⟩ := (ha.source.normalize_iff hf).mp hj.source
  obtain ⟨-, hdst⟩ := (ha.destination.normalize_iff hf').mp hj.destination
  exact ⟨ResizeRequest.dvd_origins.mp ⟨hdst.hoffset, hsrc.hoffset⟩,
    ResizeRequest.dvd_origins.mp ⟨hdst.voffset, hsrc.voffset⟩⟩

theorem Copied.dvd_skips (hc : Copied t p c src dst s s' m k request) (hf : f ∈ m.format.planes) :
    (f.hsub : Int) ∣ request.hskip ∧ (f.vsub : Int) ∣ request.vskip :=
  (hc.joins f hf).1.dvd_skips hc.apart hf (hc.planes f hf)

theorem Copied.fits (hc : Copied t p c src dst s s' m k request) : CopyFits k s request where
  macropixel := hc.formats.macropixel'.trans hc.apart.source.made.macropixel.symm
  planes _ hp := hc.planes _ (hc.apart.source.made.format_mem hp)
  hskip _ hp := (hc.dvd_skips (hc.apart.source.made.format_mem hp)).1
  vskip _ hp := (hc.dvd_skips (hc.apart.source.made.format_mem hp)).2

theorem CopyFits.exact (hfits : CopyFits k s request) (hs : s.MadeBy m) (hx : k.format.Exact) :
    m.format.Exact := by
  -- the new grids are multiples of the old ones
  refine hx.of_subset (hs.macropixel.symm.trans hfits.macropixel.symm) fun f hf => ?_
  rw [← hs.planes] at hf
  obtain ⟨plane, hp, rfl⟩ := List.mem_map.mp hf
  exact hfits.planes plane hp

theorem CopyFits.cuts (hfits : CopyFits k s request) (hx : k.format.Exact)
    (ha : Apart t p q src dst s s' m k)
    (hq : raw.ResolvesTo ⟨src.window.hsize, src.window.vsize, m.format.macropixel⟩ request)
    (hnew : dst.window.hsize = request.newHsize ∧ dst.window.vsize = request.newVsize)
    (hsigned : request.newHsize ≤ Word.maxSigned ∧ request.newVsize ≤ Word.maxSigned)
    (hskips : raw.hskip.natAbs ≤ Word.maxSigned ∧ raw.vskip.natAbs ≤ Word.maxSigned)
    (hpos : s.SharesBytes request) (hf : f ∈ m.format.planes) :
    f ∈ k.format.planes ∧ Cuts t p q request.overlap m f := by
  have hm : k.format.macropixel = m.format.macropixel :=
    hfits.macropixel.trans ha.source.made.macropixel
  have hold := ha.source.sampled (hfits.exact ha.source.made hx)
  have hfresh := ha.destination.sampled hx
  rw [← ha.source.made.planes] at hf
  obtain ⟨plane, hp, rfl⟩ := List.mem_map.mp hf
  have hbytes := hpos plane hp
  rw [PlaneStore.width_format (ha.source.made.factors ha.source.manager plane hp).1
    ha.source.macropixel_pos, ha.source.made.macropixel] at hbytes
  have hf' := hfits.planes plane hp
  exact ⟨hf', cuts_of_dvd ha hold hfresh hq hnew hsigned hskips hm (ha.source.made.format_mem hp) hf'
    (hfits.hskip plane hp) (hfits.vskip plane hp) hbytes⟩

theorem not_joinTorn (ha : Apart h p q src dst s s' m k) (hq : Request request m k)
    (hpos : s.SharesBytes request) {chroma : String} (hj : Joins h p q request.overlap chroma) :
    ¬ JoinTorn h p q request.overlap chroma := by
  -- rows with bytes are never out of reach
  obtain ⟨plane, plane', input, output, hin, -, halike, -, htorn⟩ := exists_joined ha hq hj
  have hbytes := hpos plane (Storage.mem_of_plane? hin.named).1
  rw [← hin.rowBytes] at hbytes
  rw [htorn]
  rintro (ht | ht)
  · exact Nat.ne_of_gt hbytes ht.1
  · exact Nat.ne_of_gt hbytes (halike.rowBytes.trans ht.1)

theorem copy_not_crashes (hh : Holds h p src s m) (hk : k.Sound)
    (hskips : -2 ^ 62 < raw.hskip ∧ -2 ^ 62 < raw.vskip)
    (hpos : ∀ request, normalizeResize p raw h = .ok request → s.SharesBytes request) :
    ¬ (copy k p raw).Crashes h := by
  obtain ⟨request, hn⟩ | ⟨why, hn⟩ := Stop.ok_or_fault (normalizeResize_ne_crash hh.find raw)
  · rw [copy_crashes hh hk (signed_skips hh hn hskips)]
    rintro ⟨request', hn', hg, hm, before, chroma, after, -, -, hj, ht⟩
    cases hn.symm.trans hn'
    exact not_joinTorn (apart_fresh hh hk hg) (request_of_normalize hh hn hm) (hpos request hn) hj ht
  · exact Op.not_crashes_of_fault (copy_of_unresolved hn)

theorem alloc_ok_iff {hsize vsize : Nat} :
    (∃ q, (k.alloc hsize vsize h).1 = .ok q) ↔ k.Grants hsize vsize := by
  constructor
  · rintro ⟨q, hq⟩
    by_cases hg : k.Grants hsize vsize
    · exact hg
    · obtain ⟨why, hrun⟩ := Manager.alloc_of_not_grants hg h
      rw [hrun] at hq
      cases hq
  · intro hg
    exact ⟨h.next, congrArg Prod.fst (Manager.alloc_of_grants hg h)⟩

theorem built_colorManager : colorManager.Built :=
  have hconfig : Manager.ofConfig { format := .preset "yuv420p" } = .ok colorManager := rfl
  .ofConfig Word.maxSigned hconfig

theorem exact_colorManager : colorManager.Exact :=
  Manager.exact_build ⟨by constructor <;> decide +kernel, by decide +kernel, by decide +kernel⟩ _

section

variable (hh : Holds h p src s m) (hk : k.Sound) (hs : s.hsize < 2 ^ 62 ∧ s.vsize < 2 ^ 62)
  (hskips : -2 ^ 62 < raw.hskip ∧ -2 ^ 62 < raw.vskip)
  (hsizes : raw.newHsize ≤ Word.maxSigned ∧ raw.newVsize ≤ Word.maxSigned)
  (hn : normalizeResize p raw h = .ok request) (hg : k.Grants request.newHsize request.newVsize)
  (hpos : s.SharesBytes request) (hfits : CopyFits k s request) (hx : k.format.Exact)

include hh hk hs hskips hsizes hn hg hpos hfits hx

theorem cuts_fresh (hf : f ∈ m.format.planes) : f ∈ k.format.planes ∧
    Cuts (h.withBlank k request.newHsize request.newVsize) p h.next request.overlap m f :=
  hfits.cuts hx (apart_fresh hh hk hg) (resolvesTo_of_normalize hh hn)
    ⟨rfl, rfl⟩ (signed_sizes hh hn hs hskips hsizes) (signed_skips hh hn hskips) hpos hf

theorem copy_of_fits : ∃ t, copy k p raw h = (.ok h.next, t) := by
  have ha := apart_fresh hh hk hg
  have hm : k.format.macropixel = m.format.macropixel := hfits.macropixel.trans hh.made.macropixel
  have hbefore : request.size.macropixel = m.format.macropixel := by
    rw [(resolvesTo_of_normalize hh hn).before]
  have hq : Request request m k := ⟨hbefore, hm⟩
  obtain ⟨t, hfill, -⟩ := fillCopy_of_joinsAt ha hq fun f hf =>
    have ⟨hf', hcuts⟩ := cuts_fresh hh hk hs hskips hsizes hn hg hpos hfits hx hf
    hcuts.joinsAt ha hm hf hf'
  exact ⟨_, copy_eq_ok.mpr ⟨request, hn, hg, rfl, hfill⟩⟩

end

theorem Copied.onGrid (hc : Copied t p c src dst s s' m k request) (hx : k.format.Exact)
    (hg : k.Grants request.newHsize request.newVsize)
    (hpixels : (m.format.macropixel : Int) ∣ request.hskip) : request.OnGrid m.format := by
  have hv := hc.apart.source.manager.format
  have hv' := hc.apart.destination.manager.format
  have hx' := hc.fits.exact hc.apart.source.made hx
  have hcolumns := (PictureFormat.hgrid_dvd_iff hv' hx _).mp hg.hgrid
  have hrows := (PictureFormat.vgrid_dvd_iff hv' hx _).mp hg.vgrid
  refine ⟨?_, ?_, ?_, ?_⟩
  · exact (PictureFormat.hgrid_dvd_skip_iff hv hx' _).mpr ⟨hpixels, fun f hf => (hc.dvd_skips hf).1⟩
  · exact (PictureFormat.vgrid_dvd_skip_iff hv hx' _).mpr fun f hf => (hc.dvd_skips hf).2
  · rw [PictureFormat.hgrid_dvd_iff hv hx', ← hc.formats.macropixel']
    exact ⟨hcolumns.1, fun f hf => hcolumns.2 f (hc.planes f hf)⟩
  · rw [PictureFormat.vgrid_dvd_iff hv hx']
    exact fun f hf => hrows f (hc.planes f hf)

theorem onGrid_of_copy (hh : Holds h p src s m) (hk : k.Sound) (hx : k.format.Exact)
    (hskips : raw.hskip.natAbs ≤ Word.maxSigned ∧ raw.vskip.natAbs ≤ Word.maxSigned)
    (hc : copy k p raw h = (.ok c, t)) :
    ∃ request, normalizeResize p raw h = .ok request ∧ request.OnGrid m.format := by
  obtain ⟨request, hn, hg, -⟩ := copy_eq_ok.mp hc
  obtain ⟨request', dst, s', hn', hcopied⟩ := copied_of_copy hh hk hskips hc
  cases hn.symm.trans hn'
  have hq := resolvesTo_of_normalize hh hn
  have hpixels := hq.macropixels
  rw [Nat.max_eq_left hh.manager.format.macropixel_pos, ← hq.hskip] at hpixels
  exact ⟨request, hn, hcopied.onGrid hx hg hpixels⟩

theorem onGrid_of_resizeOrReplace (hh : Holds h p src s m) (hm : m.OnGrids) (hk : k.Sound)
    (hx : k.format.Exact) {path : ResizePath}
    (hr : resizeOrReplace k p raw h = (.ok path, t))
    (hskips : raw.hskip.natAbs ≤ Word.maxSigned ∧ raw.vskip.natAbs ≤ Word.maxSigned) :
    ∃ request, normalizeResize p raw h = .ok request ∧ request.OnGrid m.format := by
  rcases resizeOrReplace_cases hr with hresize | hreplace
  · obtain ⟨request, w, hn, hw, -⟩ := movesTo_of_resize hh hresize
    exact ⟨request, hn, onGrid_of_moves hh hm hw⟩
  · obtain ⟨u, hcopy, -⟩ := replace_eq_ok.mp hreplace
    exact onGrid_of_copy hh hk hx hskips hcopy

/-! ### Requests that no copy can mend -/

/-- On the grids a resize only fails for want of room or because the picture is shared. -/
theorem not_isParameter_of_onGrid (hh : Holds h p src s m) (hm : m.OnGrids)
    (hn : normalizeResize p raw h = .ok request) (hs : src.MoveSigned request)
    (hg : request.OnGrid m.format) {why : Fault} (hr : (resize p raw h).1 = .error (.fault why)) :
    why.isParameter = false := by
  have hvisible : request.size = src.visible s := by
    rw [(resolvesTo_of_normalize hh hn).before, ← hh.made.macropixel]
    rfl
  by_cases hshared : request.kind = .grow ∧ h.refCount p ≠ 1
  · rw [resize_of_shared hn hshared] at hr
    cases hr
    rfl
  · have hsole : request.kind = .grow → h.refCount p = 1 := fun hk =>
      Decidable.not_not.mp fun hne => hshared ⟨hk, hne⟩
    have hrefs : request.kind = .grow → h.refs src.storage = 1 := fun hk =>
      (refCount_eq hh.picture?).symm.trans (hsole hk)
    rw [resize_of_ok hn hsole] at hr
    by_cases hfits : src.MoveFits s request
    · obtain ⟨w, hw⟩ := moves_of_fits hh hm hs hfits hg
      rw [tryResize_of_moves hh.find hvisible hrefs hw] at hr
      cases hr
    · obtain ⟨room, hroom⟩ := Picture.moveWindow_of_leaves hs hfits
      rw [tryResize_of_fault hh hrefs hvisible hroom] at hr
      cases hr
      rfl

def tallColor : Heap := applyAll [.alloc colorManager 4 2] .empty

theorem reachable_tallColor : Reachable [colorManager] tallColor :=
  have hm : (Action.alloc colorManager 4 2).makers .empty = [colorManager] := by decide +kernel
  have hlegal : (Action.alloc colorManager 4 2).Legal := by
    intro m hm
    obtain rfl := Option.some.inj hm
    exact built_colorManager
  hm ▸ .step (.alloc colorManager 4 2) hlegal .empty

end Heap

end Planar

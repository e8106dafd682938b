import Deposition.HeightMap
import Deposition.Proofs.Number.Rank
import Mathlib.Logic.Basic

/-!
# The envelope of a film

The particles of a film land one after another, and a height map keeps little of them: for each cell
the highest top that has been seen in it, and the lowest top of all. Both are kept in the same way –
what is there stays unless something better comes – and so both are cases of one fold,
`Deposition.HeightMap.best`: what is better for a cell is what is higher
(`Deposition.HeightMap.highest`), and for the floor what is lower (`Deposition.HeightMap.lowest`).

A comparison in which a pattern takes part that is no number comes out false, so such a pattern
never takes the place of anything; and between zeros of different signs nothing is decided, so the
first one stays. The order of the tops could matter for that reason. It matters for the sign of a
zero only: the number that is kept is determined by which numbers there were
(`Deposition.HeightMap.key_best_congr`).
-/

namespace Deposition

namespace HeightMap

/-! ### The best of some tops -/

/-- The best of some tops, in order: a top is kept until there is a better one. -/
def best (better : Single → Single → Bool) (start : Single) (tops : List Single) : Single :=
  tops.foldl (fun kept top => if better top kept then top else kept) start

/-- The highest of some tops. -/
def highest : Single → List Single → Single := best fun top kept => kept.lt top

/-- The lowest of some tops. -/
def lowest : Single → List Single → Single := best fun top kept => top.lt kept

/-- **A way to tell what is better** follows a key if the better one is the one with the greater
key, and nothing is better or worse than what has none. -/
def Follows (better : Single → Single → Bool) (key : Single → Option Int) : Prop :=
  ∀ a b, better a b = true ↔ ∃ x y, key a = some x ∧ key b = some y ∧ y < x

/-- What is higher has the greater rank. -/
theorem follows_rank : Follows (fun top kept => kept.lt top) Single.rank := by
  intro a b
  rw [Single.lt_iff]
  constructor
  · rintro ⟨x, y, hb, ha, hxy⟩
    exact ⟨y, x, ha, hb, hxy⟩
  · rintro ⟨x, y, ha, hb, hxy⟩
    exact ⟨y, x, hb, ha, hxy⟩

/-- How deep a top lies. -/
def depth (top : Single) : Option Int := top.rank.map fun x => -x

/-- What is lower has the greater depth. -/
theorem follows_depth : Follows (fun top kept => top.lt kept) depth := by
  intro a b
  rw [Single.lt_iff]
  constructor
  · rintro ⟨x, y, ha, hb, hxy⟩
    exact ⟨-x, -y, by rw [depth, ha]; rfl, by rw [depth, hb]; rfl, by omega⟩
  · rintro ⟨x, y, ha, hb, hxy⟩
    obtain ⟨x', ha', rfl⟩ := Option.map_eq_some_iff.mp ha
    obtain ⟨y', hb', rfl⟩ := Option.map_eq_some_iff.mp hb
    exact ⟨x', y', ha', hb', by omega⟩

section

variable {better : Single → Single → Bool} {key : Single → Option Int} {start : Single} {x₀ : Int}
  {tops tops' : List Single}

/-- **The best top** is the one at the start or, if that has been beaten, one of the others; and
none of them is better. -/
theorem best_spec (h : Follows better key) (hstart : key start = some x₀) (tops : List Single) :
    ∃ x, key (best better start tops) = some x ∧ x₀ ≤ x ∧
      (best better start tops = start ∨ x₀ < x ∧ best better start tops ∈ tops) ∧
      ∀ top ∈ tops, ∀ y, key top = some y → y ≤ x := by
  induction tops generalizing start x₀ with
  | nil => exact ⟨x₀, hstart, Int.le_refl _, .inl rfl, by simp⟩
  | cons top tops ih =>
    have hbest : best better start (top :: tops) =
        best better (if better top start then top else start) tops := rfl
    rw [hbest]
    split
    · next hbetter =>
      -- the first of the tops is better than the start, and the others compete with it
      obtain ⟨y, x₀', htop, hstart', hlt⟩ := (h _ _).mp hbetter
      obtain rfl : x₀ = x₀' := Option.some.inj (hstart.symm.trans hstart')
      obtain ⟨x, hx, hle, horigin, hbound⟩ := ih htop
      refine ⟨x, hx, by omega, .inr ⟨by omega, ?_⟩, ?_⟩
      · rcases horigin with horigin | ⟨-, hmem⟩
        · exact List.mem_cons.mpr (.inl horigin)
        · exact List.mem_cons_of_mem _ hmem
      · rintro other hother z hz
        rcases List.mem_cons.mp hother with rfl | hother
        · rw [htop] at hz
          cases hz
          exact hle
        · exact hbound other hother z hz
    · next hbetter =>
      obtain ⟨x, hx, hle, horigin, hbound⟩ := ih hstart
      refine ⟨x, hx, hle,
        horigin.imp_right fun ⟨hlt, hmem⟩ => ⟨hlt, List.mem_cons_of_mem _ hmem⟩, ?_⟩
      rintro other hother z hz
      rcases List.mem_cons.mp hother with rfl | hother
      · have hnot : ¬x₀ < z := fun hlt => hbetter ((h _ _).mpr ⟨z, x₀, hz, hstart, hlt⟩)
        omega
      · exact hbound other hother z hz

/-- More tops do not make the best one worse. -/
theorem key_best_le (h : Follows better key) (hstart : key start = some x₀)
    (hsub : ∀ k ∈ tops.map key, k ∈ tops'.map key) {x x' : Int}
    (hx : key (best better start tops) = some x) (hx' : key (best better start tops') = some x') :
    x ≤ x' := by
  obtain ⟨y, hy, -, horigin, -⟩ := best_spec h hstart tops
  obtain ⟨y', hy', hle, -, hbound⟩ := best_spec h hstart tops'
  obtain rfl : y = x := Option.some.inj (hy.symm.trans hx)
  obtain rfl : y' = x' := Option.some.inj (hy'.symm.trans hx')
  rcases horigin with horigin | ⟨-, hmem⟩
  · rw [horigin, hstart] at hx
    cases hx
    exact hle
  · obtain ⟨top, htop, hkey⟩ := List.mem_map.mp (hsub _ (List.mem_map_of_mem hmem))
    exact hbound top htop y (hkey.trans hx)

/-- **The best key is determined by which keys there are**, whatever their order and number. -/
theorem key_best_congr (h : Follows better key) (hstart : key start = some x₀)
    (hsame : ∀ k, k ∈ tops.map key ↔ k ∈ tops'.map key) :
    key (best better start tops) = key (best better start tops') := by
  obtain ⟨x, hx, -⟩ := best_spec h hstart tops
  obtain ⟨x', hx', -⟩ := best_spec h hstart tops'
  have hle := key_best_le h hstart (fun k => (hsame k).mp) hx hx'
  have hge := key_best_le h hstart (fun k => (hsame k).mpr) hx' hx
  exact (hx.trans (congrArg some (Int.le_antisymm hle hge))).trans hx'.symm

end

variable {tops tops' : List Single}

/-- **The highest top above the ground is determined by the ranks**, and not only up to the sign
of a zero: a zero never takes the place of the ground. -/
theorem highest_congr (hsame : ∀ r, r ∈ tops.map Single.rank ↔ r ∈ tops'.map Single.rank) :
    highest .zero tops = highest .zero tops' := by
  have hzero : Single.zero.rank = some 0 := rfl
  have hrank : (highest .zero tops).rank = (highest .zero tops').rank :=
    key_best_congr follows_rank hzero hsame
  obtain ⟨x, hx, -, horigin, -⟩ := best_spec follows_rank hzero tops
  obtain ⟨x', hx', -, horigin', -⟩ := best_spec follows_rank hzero tops'
  obtain rfl : x = x' := Option.some.inj ((hx.symm.trans hrank).trans hx')
  rcases horigin with hground | ⟨hpos, -⟩
  · rcases horigin' with hground' | ⟨hpos, -⟩
    · exact hground.trans hground'.symm
    · exact absurd (Option.some.inj (hx.symm.trans (hground ▸ hzero))) (by omega)
  · exact Single.eq_of_rank_eq hx hx' (by omega)

/-- **The lowest top is determined by the ranks** up to the sign of a zero. -/
theorem lowest_congr {start : Single} (hstart : start.rank.isSome = true)
    (hsame : ∀ r, r ∈ tops.map Single.rank ↔ r ∈ tops'.map Single.rank) :
    Single.Alike (lowest start tops) (lowest start tops') := by
  obtain ⟨x₀, hx₀⟩ := Option.isSome_iff_exists.mp hstart
  have hdepth : depth start = some (-x₀) := by rw [depth, hx₀]; rfl
  have hdepths (k : Option Int) : k ∈ tops.map depth ↔ k ∈ tops'.map depth := by
    have hmap (l : List Single) :
        l.map depth = (l.map Single.rank).map (Option.map fun x => -x) := by
      rw [List.map_map]
      rfl
    rw [hmap, hmap, List.mem_map, List.mem_map]
    exact exists_congr fun r => and_congr_left' (hsame r)
  have hsame' : depth (lowest start tops) = depth (lowest start tops') :=
    key_best_congr follows_depth hdepth hdepths
  obtain ⟨x, hx, -⟩ := best_spec follows_depth hdepth tops
  obtain ⟨y, hy, hyx⟩ := Option.map_eq_some_iff.mp hx
  obtain ⟨y', hy', hyx'⟩ := Option.map_eq_some_iff.mp (hsame'.symm.trans hx)
  obtain rfl : y = y' := by omega
  exact Single.alike_of_rank_eq hy hy'

/-! ### The cells of a grid -/

/-- The tops of the landings in a cell. -/
def topsIn (cell : Nat) (landings : List (Nat × Single)) : List Single :=
  (landings.filter fun landing => landing.1 == cell).map Prod.snd

theorem topsIn_cons_self (cell : Nat) (top : Single) (landings : List (Nat × Single)) :
    topsIn cell ((cell, top) :: landings) = top :: topsIn cell landings := by
  simp [topsIn]

theorem topsIn_cons_of_ne {cell cell' : Nat} (h : cell' ≠ cell) (top : Single)
    (landings : List (Nat × Single)) :
    topsIn cell ((cell', top) :: landings) = topsIn cell landings := by
  simp [topsIn, h]

/-- **A cell of a grid** holds the highest of what it held and the tops that landed in it. -/
theorem getElem?_foldl_raise (landings : List (Nat × Single)) (grid : Array Single) (cell : Nat) :
    (landings.foldl raise grid)[cell]? =
      grid[cell]?.map fun h => highest h (topsIn cell landings) := by
  induction landings generalizing grid with
  | nil => exact (Option.map_id_apply).symm
  | cons landing landings ih =>
    obtain ⟨cell', top⟩ := landing
    rw [List.foldl_cons, ih, raise, Array.getElem?_modify]
    by_cases h : cell' = cell
    · subst h
      rw [if_pos rfl, topsIn_cons_self, Option.map_map]
      rfl
    · rw [if_neg h, topsIn_cons_of_ne h]

/-- **The heights of a map** are the highest tops in the cells, and no less than the ground. -/
theorem getElem?_heights (bins : Nat) (landings : List (Nat × Single)) (cell : Nat) :
    (ofLandings bins landings).heights[cell]? =
      if cell < bins * bins then some (highest .zero (topsIn cell landings)) else none := by
  unfold ofLandings
  dsimp only
  rw [getElem?_foldl_raise, Array.getElem?_replicate]
  split <;> rfl

/-- **The lowest top of a map** is that of all landings. -/
theorem lowestTop_eq (bins : Nat) (landings : List (Nat × Single)) :
    (ofLandings bins landings).lowestTop = lowest .greatest (landings.map Prod.snd) := by
  unfold ofLandings
  rw [lowest, best, List.foldl_map]
  rfl

end HeightMap

end Deposition

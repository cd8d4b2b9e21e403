import Mathlib.Data.List.Nodup
import SearchLoad.Run.Fleet

namespace SearchLoad.Run.Fleet

/-- All users that were ever spawned. -/
def users (f : Fleet) : List User := f.active ++ f.retired

def ids (f : Fleet) : List Nat := f.users.map User.id

/-- The numbers of the users that were spawned, latest first. -/
def spawnedIds (f : Fleet) : List Nat :=
  f.history.filterMap fun (_, event) =>
    match event with
    | .spawned id => some id
    | _ => none

/-- The numbers of the users that were retired, latest first. -/
def retiredIds (f : Fleet) : List Nat :=
  f.history.filterMap fun (_, event) =>
    match event with
    | .retired id => some id
    | _ => none

/-- A fleet without one of its users, and where that one belongs. -/
inductive Place
  | active (newer older retired : List User) (peak : Nat) (history : List (Nat × FleetEvent))
  | retired (active later earlier : List User) (peak : Nat) (history : List (Nat × FleetEvent))

namespace Place

def fill : Place → User → Fleet
  | .active newer older rest peak history, u => ⟨newer ++ u :: older, rest, peak, history⟩
  | .retired rest later earlier peak history, u => ⟨rest, later ++ u :: earlier, peak, history⟩

/-- The users beside the one that is left out. -/
def others : Place → List User
  | .active newer older rest _ _ => newer ++ older ++ rest
  | .retired rest later earlier _ _ => rest ++ later ++ earlier

theorem users_fill_perm (p : Place) (u : User) : (p.fill u).users.Perm (u :: p.others) := by
  cases p with
  | active newer older rest =>
    simp [fill, others, users]
  | retired rest later earlier =>
    simpa [fill, others, users] using @List.perm_middle _ u (rest ++ later) earlier

theorem mem_users_fill {p : Place} {u v : User} :
    v ∈ (p.fill u).users ↔ v = u ∨ v ∈ p.others := by
  rw [(p.users_fill_perm u).mem_iff, List.mem_cons]

theorem mem_fill (p : Place) (u : User) : u ∈ (p.fill u).users := mem_users_fill.mpr (.inl rfl)

theorem forall_users_fill {P : User → Prop} {p : Place} {u v : User} (one : P u → P v)
    (h : ∀ w ∈ (p.fill u).users, P w) : ∀ w ∈ (p.fill v).users, P w := by
  intro w hw
  rcases mem_users_fill.mp hw with rfl | hw
  · exact one (h u (p.mem_fill u))
  · exact h w (mem_users_fill.mpr (.inr hw))

theorem spawned_fill (p : Place) (u v : User) : (p.fill u).spawned = (p.fill v).spawned := by
  cases p <;> simp [fill, spawned]

theorem spawnedIds_fill (p : Place) (u v : User) :
    (p.fill u).spawnedIds = (p.fill v).spawnedIds := by
  cases p <;> rfl

theorem retiredIds_fill (p : Place) (u v : User) :
    (p.fill u).retiredIds = (p.fill v).retiredIds := by
  cases p <;> rfl

theorem peak_fill (p : Place) (u v : User) : (p.fill u).peak = (p.fill v).peak := by
  cases p <;> rfl

theorem history_fill (p : Place) (u v : User) : (p.fill u).history = (p.fill v).history := by
  cases p <;> rfl

theorem active_ids_fill (p : Place) {u v : User} (h : v.id = u.id) :
    (p.fill v).active.map User.id = (p.fill u).active.map User.id := by
  cases p <;> simp [fill, h]

theorem retired_ids_fill (p : Place) {u v : User} (h : v.id = u.id) :
    (p.fill v).retired.map User.id = (p.fill u).retired.map User.id := by
  cases p <;> simp [fill, h]

theorem ids_fill (p : Place) {u v : User} (h : v.id = u.id) : (p.fill v).ids = (p.fill u).ids := by
  simp only [ids, users, List.map_append, p.active_ids_fill h, p.retired_ids_fill h]

theorem awaited_ids_fill (p : Place) {u v : User} (h : v.id = u.id) :
    (p.fill v).awaited.map User.id = (p.fill u).awaited.map User.id := by
  simp only [awaited, List.map_append, List.map_reverse, p.active_ids_fill h,
    p.retired_ids_fill h]

end Place

theorem mem_awaited {f : Fleet} {u : User} : u ∈ f.awaited ↔ u ∈ f.users := by
  simp [awaited, users]

theorem awaited_ids_perm (f : Fleet) : (f.awaited.map User.id).Perm f.ids := by
  refine List.Perm.map User.id ?_
  exact (List.reverse_perm f.active).append (List.reverse_perm f.retired)

@[simp] theorem spawned_spawn (f : Fleet) (scene : Scene) (now : Nat) :
    (f.spawn scene now).spawned = f.spawned + 1 := by
  simp only [spawn, spawned, List.length_cons]
  omega

@[simp] theorem spawned_retire (f : Fleet) (now : Nat) : (f.retire now).spawned = f.spawned := by
  unfold retire
  split
  · rfl
  · rename_i u us h
    simp only [spawned, h, List.length_cons]
    omega

@[simp] theorem active_notePeak (f : Fleet) (now : Nat) : (f.notePeak now).active = f.active := by
  unfold notePeak
  split <;> rfl

@[simp] theorem retired_notePeak (f : Fleet) (now : Nat) :
    (f.notePeak now).retired = f.retired := by
  unfold notePeak
  split <;> rfl

@[simp] theorem users_notePeak (f : Fleet) (now : Nat) : (f.notePeak now).users = f.users := by
  simp [users]

@[simp] theorem spawned_notePeak (f : Fleet) (now : Nat) :
    (f.notePeak now).spawned = f.spawned := by
  simp [spawned]

theorem peak_notePeak (f : Fleet) (now : Nat) :
    (f.notePeak now).peak = max f.active.length f.peak := by
  unfold notePeak
  split
  · simp only
    omega
  · omega

/-- What holds of a fleet's users, whether or not their flags are up, holds after a retirement. -/
theorem forall_users_retire {P : User → Prop} (stopped : ∀ u, P u → P u.stop) (now : Nat)
    {f : Fleet} (h : ∀ u ∈ f.users, P u) : ∀ u ∈ (f.retire now).users, P u := by
  unfold retire
  split
  · exact h
  · rename_i u us ha
    simp only [users, ha, List.forall_mem_append, List.forall_mem_cons] at h ⊢
    exact ⟨h.1.2, stopped u h.1.1, h.2⟩

theorem active_length_grow (f : Fleet) (scene : Scene) (now k : Nat) :
    (f.grow scene now k).active.length = f.active.length + k := by
  induction k generalizing f with
  | zero => rfl
  | succ k ih =>
    rw [grow, ih]
    simp only [spawn, List.length_cons]
    omega

theorem retired_grow (f : Fleet) (scene : Scene) (now k : Nat) :
    (f.grow scene now k).retired = f.retired := by
  induction k generalizing f with
  | zero => rfl
  | succ k ih => rw [grow, ih, spawn]

theorem active_shrink (f : Fleet) (now k : Nat) :
    (f.shrink now k).active = f.active.drop k := by
  induction k generalizing f with
  | zero => rfl
  | succ k ih =>
    rw [shrink, ih]
    cases h : f.active <;> simp [retire, h]

/-- Users are retired newest first. -/
theorem retired_shrink (f : Fleet) (now k : Nat) :
    (f.shrink now k).retired = ((f.active.take k).map User.stop).reverse ++ f.retired := by
  induction k generalizing f with
  | zero => simp [shrink]
  | succ k ih =>
    rw [shrink, ih]
    cases h : f.active <;> simp [retire, h]

theorem active_length_resize (f : Fleet) (scene : Scene) (now target : Nat) :
    (f.resize scene now target).active.length = target := by
  simp only [resize, active_notePeak, active_shrink, List.length_drop, active_length_grow]
  omega

theorem retired_resize (f : Fleet) (scene : Scene) (now target : Nat) :
    (f.resize scene now target).retired =
      ((f.active.take (f.active.length - target)).map User.stop).reverse ++ f.retired := by
  simp only [resize, retired_notePeak, retired_shrink, active_length_grow, retired_grow]
  rcases Nat.le_total f.active.length target with h | h
  · have stays : f.active.length + (target - f.active.length) - target = 0 := by omega
    have zero : f.active.length - target = 0 := by omega
    rw [stays, zero]
    rfl
  · have zero : target - f.active.length = 0 := by omega
    rw [zero]
    rfl

/-- A fleet is resized user by user. -/
theorem resize_induction {P : Fleet → Prop} {scene : Scene} {now : Nat}
    (spawn : ∀ f, P f → P (f.spawn scene now)) (retire : ∀ f, P f → P (f.retire now))
    (note : ∀ f, P f → P (f.notePeak now)) (target : Nat) {f : Fleet} (h : P f) :
    P (f.resize scene now target) := by
  have grown : ∀ (k : Nat) (f : Fleet), P f → P (f.grow scene now k) := by
    intro k
    induction k with
    | zero => exact fun _ h => h
    | succ k ih => exact fun f h => ih _ (spawn f h)
  have shrunk : ∀ (k : Nat) (f : Fleet), P f → P (f.shrink now k) := by
    intro k
    induction k with
    | zero => exact fun _ h => h
    | succ k ih => exact fun f h => ih _ (retire f h)
  exact note _ (shrunk _ _ (grown _ _ h))

/-- What holds of new users and survives a raised stop flag holds of a resized fleet. -/
theorem forall_users_resize {P : User → Prop} {scene : Scene} {now : Nat}
    (fresh : ∀ id, P (.spawn scene now id)) (stopped : ∀ u, P u → P u.stop) (target : Nat)
    {f : Fleet} (h : ∀ u ∈ f.users, P u) : ∀ u ∈ (f.resize scene now target).users, P u := by
  apply resize_induction (P := fun f => ∀ u ∈ f.users, P u) ?_ ?_ ?_ target h
  · exact fun f h => List.forall_mem_cons.mpr ⟨fresh f.spawned, h⟩
  · exact fun f h => forall_users_retire stopped now h
  · intro f h
    rw [users_notePeak]
    exact h

theorem spawnedIds_retire (f : Fleet) (now : Nat) : (f.retire now).spawnedIds = f.spawnedIds := by
  unfold retire
  split <;> rfl

theorem spawnedIds_notePeak (f : Fleet) (now : Nat) :
    (f.notePeak now).spawnedIds = f.spawnedIds := by
  unfold notePeak
  split <;> rfl

theorem retiredIds_notePeak (f : Fleet) (now : Nat) :
    (f.notePeak now).retiredIds = f.retiredIds := by
  unfold notePeak
  split <;> rfl

/-- Users were numbered from zero as they were spawned, each of them is active or retired, the
active ones stand newest first, and who was once retired stays so. -/
structure Numbered (f : Fleet) : Prop where
  spawns : f.spawnedIds = (List.range f.spawned).reverse
  ids : f.ids.Perm (List.range f.spawned)
  newest_first : (f.active.map User.id).Pairwise (· > ·)
  retirements : f.retiredIds = f.retired.map User.id

namespace Numbered

theorem nodup {f : Fleet} (h : f.Numbered) : f.ids.Nodup :=
  h.ids.nodup_iff.mpr List.nodup_range

theorem disjoint {f : Fleet} (h : f.Numbered) :
    List.Disjoint (f.active.map User.id) (f.retired.map User.id) := by
  have nodup := h.nodup
  rw [Fleet.ids, users, List.map_append] at nodup
  exact List.disjoint_of_nodup_append nodup

theorem id_lt {f : Fleet} (h : f.Numbered) {u : User} (hu : u ∈ f.users) : u.id < f.spawned :=
  List.mem_range.mp (h.ids.mem_iff.mp (List.mem_map_of_mem hu))

theorem id_ne_of_mem_others {p : Place} {u v : User} (h : (p.fill u).Numbered)
    (hv : v ∈ p.others) : u.id ≠ v.id := by
  have nodup := ((p.users_fill_perm u).map User.id).nodup_iff.mp h.nodup
  intro e
  rw [List.map_cons, List.nodup_cons, e] at nodup
  exact nodup.1 (List.mem_map_of_mem hv)

theorem empty : Fleet.empty.Numbered := ⟨rfl, .refl _, .nil, rfl⟩

theorem spawn {f : Fleet} (h : f.Numbered) (scene : Scene) (now : Nat) :
    (f.spawn scene now).Numbered := by
  refine ⟨?_, ?_, ?_, h.retirements⟩
  · rw [spawned_spawn, List.range_succ, List.reverse_append, ← h.spawns]
    rfl
  · rw [spawned_spawn, List.range_succ]
    exact (h.ids.cons f.spawned).trans (List.perm_append_singleton _ _).symm
  · refine List.Pairwise.cons ?_ h.newest_first
    intro i hi
    obtain ⟨u, hu, rfl⟩ := List.mem_map.mp hi
    exact h.id_lt (List.mem_append_left _ hu)

theorem retire {f : Fleet} (h : f.Numbered) (now : Nat) : (f.retire now).Numbered := by
  refine ⟨?_, ?_, ?_, ?_⟩
  · rw [spawnedIds_retire, spawned_retire, h.spawns]
  · rw [spawned_retire]
    refine List.Perm.trans ?_ h.ids
    cases ha : f.active with
    | nil => simp [Fleet.retire, ha]
    | cons u us =>
      simp [Fleet.retire, Fleet.ids, users, ha, User.stop]
  · cases ha : f.active with
    | nil => simp [Fleet.retire, ha]
    | cons u us =>
      have newest := h.newest_first
      rw [ha] at newest
      simpa [Fleet.retire, ha] using newest.tail
  · have retirements := h.retirements
    cases ha : f.active with
    | nil => simpa [Fleet.retire, ha] using retirements
    | cons u us => simpa [Fleet.retire, ha, retiredIds, User.stop] using retirements

theorem notePeak {f : Fleet} (h : f.Numbered) (now : Nat) : (f.notePeak now).Numbered :=
  ⟨by simpa [spawnedIds_notePeak] using h.spawns, by simpa [Fleet.ids] using h.ids,
    by simpa using h.newest_first, by simpa [retiredIds_notePeak] using h.retirements⟩

theorem fill {p : Place} {u v : User} (h : (p.fill u).Numbered) (e : v.id = u.id) :
    (p.fill v).Numbered := by
  refine ⟨?_, ?_, ?_, ?_⟩
  · rw [p.spawnedIds_fill v u, p.spawned_fill v u]
    exact h.spawns
  · rw [p.ids_fill e, p.spawned_fill v u]
    exact h.ids
  · rw [p.active_ids_fill e]
    exact h.newest_first
  · rw [p.retiredIds_fill v u, p.retired_ids_fill e]
    exact h.retirements

end Numbered

/-- The stop flags of the retired users are up, those of the active ones down. -/
structure Flagged (f : Fleet) : Prop where
  down : ∀ u ∈ f.active, u.stopping = false
  up : ∀ u ∈ f.retired, u.stopping = true

namespace Flagged

theorem empty : Fleet.empty.Flagged := ⟨by simp [Fleet.empty], by simp [Fleet.empty]⟩

theorem spawn {f : Fleet} (h : f.Flagged) (scene : Scene) (now : Nat) :
    (f.spawn scene now).Flagged := by
  refine ⟨?_, h.up⟩
  intro u hu
  rcases List.mem_cons.mp hu with rfl | hu
  · rfl
  · exact h.down u hu

theorem retire {f : Fleet} (h : f.Flagged) (now : Nat) : (f.retire now).Flagged := by
  unfold Fleet.retire
  split
  · exact h
  · rename_i u us ha
    refine ⟨fun v hv => h.down v (ha ▸ List.mem_cons_of_mem _ hv), ?_⟩
    intro v hv
    rcases List.mem_cons.mp hv with rfl | hv
    · rfl
    · exact h.up v hv

theorem notePeak {f : Fleet} (h : f.Flagged) (now : Nat) : (f.notePeak now).Flagged :=
  ⟨by simpa using h.down, by simpa using h.up⟩

/-- In the end all flags are up. -/
theorem stopAll {f : Fleet} (h : f.Flagged) : ∀ u ∈ f.stopAll.users, u.stopping = true := by
  intro u hu
  rcases List.mem_append.mp hu with hu | hu
  · obtain ⟨v, -, rfl⟩ := List.mem_map.mp hu
    rfl
  · exact h.up u hu

theorem fill {p : Place} {u v : User} (h : (p.fill u).Flagged) (e : v.stopping = u.stopping) :
    (p.fill v).Flagged := by
  obtain ⟨down, up⟩ := h
  cases p with
  | active newer older rest =>
    refine ⟨?_, up⟩
    simp only [Place.fill, List.forall_mem_append, List.forall_mem_cons] at down ⊢
    exact ⟨down.1, e.trans down.2.1, down.2.2⟩
  | retired rest later earlier =>
    refine ⟨down, ?_⟩
    simp only [Place.fill, List.forall_mem_append, List.forall_mem_cons] at up ⊢
    exact ⟨up.1, e.trans up.2.1, up.2.2⟩

end Flagged

end SearchLoad.Run.Fleet

import SearchLoad.Proofs.Run.VirtualClock

namespace SearchLoad.Run

variable {scene : Scene} {o : Options}

/-- The most users that were active after a wake. -/
def peakOf (wakes : List (Nat × Nat)) : Nat := (wakes.map Prod.snd).foldr max 0

namespace Moment

variable {m m' : Moment}

/-- The wakes left as many users as they were asked for; the last one's are active since. -/
structure OnCourse (o : Options) (m : Moment) : Prop where
  asked : ∀ w ∈ m.wakes, o.profile.targetAt w.1 = some w.2
  resizing : ∀ time target, m.control = .resizing time target →
    o.profile.targetAt time = some target
  sleeping : m.control = .sleeping → m.wakes.head?.map Prod.snd = some m.fleet.active.length
  peak : m.fleet.peak = peakOf m.wakes

theorem Step.onCourse (next : Step scene o m m') (h : m.OnCourse o) : m'.OnCourse o := by
  obtain ⟨asked, resizing, sleeping, peak⟩ := h
  cases next with
  | look place => exact ⟨asked, resizing, sleeping, peak⟩
  | @move p u v e place moves =>
    refine ⟨asked, resizing, ?_, ?_⟩
    · intro asleep
      have same := congrArg List.length (p.active_ids_fill moves.id_eq)
      rw [sleeping asleep, place]
      simpa using same.symm
    · exact (p.peak_fill v u).trans (place ▸ peak)
  | wake control later found =>
    refine ⟨asked, ?_, by simp, peak⟩
    intro time target e
    cases e
    exact found
  | spawn control few later => exact ⟨asked, resizing, by simp [control], peak⟩
  | retire control many later =>
    refine ⟨asked, resizing, by simp [control], ?_⟩
    rw [← peak, Fleet.retire]
    split <;> rfl
  | settle control enough later =>
    refine ⟨?_, by simp, by simp, ?_⟩
    · intro w hw
      rcases List.mem_cons.mp hw with rfl | hw
      · rw [enough]
        exact resizing _ _ control
      · exact asked w hw
    · rw [Fleet.peak_notePeak, peak]
      rfl
  | flag control place =>
    refine ⟨asked, by simp [control], by simp [control], ?_⟩
    exact (Fleet.Place.peak_fill _ _ _).trans (place ▸ peak)
  | rouse control | expire control => exact ⟨asked, by simp, by simp, peak⟩
  | await control | join control | abort control | report control =>
    exact ⟨asked, by simp, by simp, peak⟩

theorem Reached.onCourse (h : Reached scene o m) : m.OnCourse o := by
  induction h with
  | start => exact ⟨by simp [Moment.start], by simp [Moment.start], by simp [Moment.start], rfl⟩
  | step _ next ih => exact next.onCourse ih

/-- Who is retired had the largest number of all that were active. -/
theorem Step.retires_newest (next : Step scene o m m') (numbered : m.fleet.Numbered) {i : Nat}
    (gone : i ∈ m'.fleet.retired.map User.id) (there : i ∉ m.fleet.retired.map User.id) :
    i ∈ m.fleet.active.map User.id ∧ ∀ j ∈ m.fleet.active.map User.id, j ≤ i := by
  cases next with
  | retire control many later =>
    cases ha : m.fleet.active with
    | nil => simp [ha] at many
    | cons u us =>
      have newest := numbered.newest_first
      simp only [Fleet.retire, ha, List.map_cons, List.mem_cons, User.stop] at gone
      obtain rfl : i = u.id := gone.resolve_right there
      rw [ha, List.map_cons, List.pairwise_cons] at newest
      refine ⟨List.mem_cons_self, ?_⟩
      intro j hj
      rcases List.mem_cons.mp hj with rfl | hj
      · exact Nat.le_refl _
      · exact Nat.le_of_lt (newest.1 j hj)
  | @move p u v e place moves =>
    rw [place, ← p.retired_ids_fill moves.id_eq] at there
    contradiction
  | settle control enough later =>
    rw [Fleet.retired_notePeak] at gone
    contradiction
  | flag control place =>
    rw [place] at there
    contradiction
  | _ => contradiction

end Moment

/-- The fleet of a test that keeps to its profile, after the given wakes: users bear the numbers
below their number, the active ones stand newest first, the stop flags of the others are up, and the
peak is the most users that a wake left. -/
structure KeepsCourse (o : Options) (f : Fleet) (wakes : List (Nat × Nat)) : Prop where
  numbered : f.Numbered
  flagged : f.Flagged
  asked : ∀ w ∈ wakes, o.profile.targetAt w.1 = some w.2
  peak : f.peak = peakOf wakes

theorem Moment.Reached.keepsCourse {m : Moment} (h : Reached scene o m)
    (following : m.control.isFollowing) : KeepsCourse o m.fleet m.wakes :=
  ⟨h.numbered, h.flagged following, h.onCourse.asked, h.onCourse.peak⟩

namespace Follows

variable {wakes : List (Nat × Nat)} {c : Controller}

theorem keepsCourse (h : Follows scene o wakes c) : KeepsCourse o c.fleet wakes := by
  obtain ⟨events, looking⟩ := h.atLook
  exact looking.keepsCourse rfl

theorem active_length (h : Follows scene o wakes c) :
    c.fleet.active.length = (wakes.head?.map Prod.snd).getD 0 := by
  cases h with
  | start => rfl
  | @wake wakes c target before asked =>
    show ((c.fleet.resize scene c.time target).active.map _).length = target
    rw [List.length_map, Fleet.active_length_resize]

end Follows

/-- Until the profile is over the fleet keeps to it, under every schedule and on the virtual clock:
after a wake the active users are as many as the profile asks for at its time, and whoever is
retired is the newest. On the virtual clock the wakes are those of the controller's loop: it comes
to every one of them, it ends only where the profile is over, and a simulated test reports the peak
of its wakes. -/
theorem fleet_keeps_course (scene : Scene) (o : Options) :
    (∀ m, Moment.Reached scene o m → m.control.isFollowing →
      KeepsCourse o m.fleet m.wakes ∧
      (m.control = .sleeping → ∃ time wakes, m.wakes = (time, m.fleet.active.length) :: wakes ∧
        o.profile.targetAt time = some m.fleet.active.length) ∧
      ∀ m', Moment.Step scene o m m' → ∀ i ∈ m'.fleet.retired.map User.id,
        i ∉ m.fleet.retired.map User.id →
        i ∈ m.fleet.active.map User.id ∧ ∀ j ∈ m.fleet.active.map User.id, j ≤ i) ∧
    (∀ wakes c target, Follows scene o wakes c → o.profile.targetAt c.time = some target →
      let f := c.fleet.resize scene c.time target
      f.active.length = target ∧ KeepsCourse o f ((c.time, target) :: wakes) ∧
      f.retired = ((c.fleet.active.take (c.fleet.active.length - target)).map User.stop).reverse ++
        c.fleet.retired) ∧
    (∀ wakes c, Follows scene o wakes c → KeepsCourse o c.fleet wakes ∧
      c.fleet.active.length = (wakes.head?.map Prod.snd).getD 0 ∧
      ∀ fuel, Controller.start.follow scene o (fuel + wakes.length) = c.follow scene o fuel) ∧
    (∀ c, (∃ fuel, Controller.start.follow scene o fuel = some c) ↔
      ∃ wakes, Follows scene o wakes c ∧ o.profile.targetAt c.time = none) ∧
    ∀ r, simulate scene o = some r → ∃ wakes c,
      Controller.start.follow scene o (Controller.maxWakes o) = some c ∧ Follows scene o wakes c ∧
      r.report.elapsed = c.time ∧ r.report.peakUsers = peakOf wakes := by
  refine ⟨?_, ?_, ?_, fun _ => Follows.exists_follow_iff, ?_⟩
  · intro m h following
    refine ⟨h.keepsCourse following, ?_, fun m' next i gone there =>
      next.retires_newest h.numbered gone there⟩
    intro asleep
    have last := h.onCourse.sleeping asleep
    have asked := h.onCourse.asked
    cases hw : m.wakes with
    | nil => simp [hw] at last
    | cons w wakes =>
      obtain ⟨time, count⟩ := w
      simp only [hw, List.head?_cons, Option.map_some, Option.some.injEq] at last
      subst last
      exact ⟨time, wakes, rfl, asked (time, _) (hw ▸ List.mem_cons_self)⟩
  · intro wakes c target follows asked
    obtain ⟨events, resized⟩ := Follows.resized follows.atLook asked
    exact ⟨Fleet.active_length_resize _ _ _ _, resized.keepsCourse rfl,
      Fleet.retired_resize _ _ _ _⟩
  · exact fun wakes c follows => ⟨follows.keepsCourse, follows.active_length, follows.follow_eq⟩
  · intro r returns
    obtain ⟨wakes, c, followed, follows, -, ends⟩ := Follows.of_simulate returns
    obtain ⟨elapsed, peak⟩ := report_of_finish ends
    exact ⟨wakes, c, followed, follows, elapsed, peak.trans follows.keepsCourse.peak⟩

/-- After its second wake, halfway down from two users, the brief test has one. The third finds the
profile over. -/
theorem brief_fleet_keeps_course :
    let c := Controller.start.wake briefScene briefOptions.tick 2
    let f := c.fleet.resize briefScene c.time 1
    let last := c.wake briefScene briefOptions.tick 1
    f.active.length = 1 ∧ KeepsCourse briefOptions f [(c.time, 1), (0, 2)] ∧
    last.fleet.active.length = 1 ∧ KeepsCourse briefOptions last.fleet [(c.time, 1), (0, 2)] ∧
    Controller.start.follow briefScene briefOptions 3 = some last ∧
    ∃ r, simulate briefScene briefOptions = some r ∧ r.report.elapsed = last.time ∧
      r.report.peakUsers = 2 := by
  intro c f last
  have first : briefOptions.profile.targetAt 0 = some 2 := by decide +kernel
  have second : briefOptions.profile.targetAt 1000000000 = some 1 := by decide +kernel
  have third : briefOptions.profile.targetAt last.time = none := by decide +kernel
  have woken : Follows briefScene briefOptions [(0, 2)] c := Follows.start.wake first
  obtain ⟨-, wakes, loop, -, returned⟩ := fleet_keeps_course briefScene briefOptions
  have course := wakes _ _ 1 woken second
  obtain ⟨kept, one, comes⟩ := loop _ _ (woken.wake second)
  have ended : ∀ fuel, last.follow briefScene briefOptions (fuel + 1) = some last := by
    intro fuel
    rw [Controller.follow, third]
  have returns : (simulate briefScene briefOptions).isSome = true := by decide +kernel
  obtain ⟨r, returns⟩ := Option.isSome_iff_exists.mp returns
  obtain ⟨wakes', c', followed, follows', elapsed, peak⟩ := returned r returns
  obtain rfl : last = c' := Option.some.inj (((comes 2).trans (ended 1)).symm.trans followed)
  refine ⟨course.1, course.2.1, one, kept, (comes 1).trans (ended 0), r, returns, elapsed, ?_⟩
  exact peak.trans ((loop _ _ follows').1.peak.symm.trans kept.peak)

end SearchLoad.Run

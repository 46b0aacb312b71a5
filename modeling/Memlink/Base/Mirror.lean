import Memlink.Base.Traverse

/-!
# A mirror kept by a snapshot and an event queue

Items with an id and a name come and go; at any time the names of the present ones are
distinct, and an id is never used twice. An observer holds a list of items. It fills the
list from a snapshot of ids and then handles, in order, the events queued since before the
snapshot was taken: an appearance names the id, a disappearance the name. Looking up an id
finds an item only while it is present. The rules below keep `Sound`, which says that what
is held is right up to queued events, and `Covered`, which says that nothing is missing up
to queued events and pending ids; with nothing queued or pending the two are agreement.
-/

namespace Memlink.Mirror

universe u v

/-- An item. -/
structure Item (ι : Type u) (ν : Type v) where
  id : ι
  name : ν
  deriving DecidableEq, Repr

/-- A queued event. -/
inductive Event (ι : Type u) (ν : Type v) where
  | appeared (id : ι)
  | vanished (name : ν)
  deriving DecidableEq, Repr

variable {ι : Type u} {ν : Type v}

/-- Every queued disappearance under the item's name is followed by its own appearance. -/
def Followed (x : Item ι ν) : List (Event ι ν) → Prop
  | [] => True
  | e :: q => (e = .vanished x.name → .appeared x.id ∈ q) ∧ Followed x q

/-- A queued disappearance under the name has the appearance after it. -/
theorem Followed.appeared_mem {x : Item ι ν} {q : List (Event ι ν)} (h : Followed x q)
    (hv : .vanished x.name ∈ q) : .appeared x.id ∈ q := by
  induction q with
  | nil => cases hv
  | cons e q ih =>
    rcases List.mem_cons.mp hv with he | hv
    · exact List.mem_cons_of_mem e (h.1 he.symm)
    · exact List.mem_cons_of_mem e (ih h.2 hv)

/-- Queueing an event that is no disappearance under the name keeps it followed. -/
theorem Followed.concat {x : Item ι ν} {q : List (Event ι ν)} (h : Followed x q)
    {e : Event ι ν} (he : e ≠ .vanished x.name) : Followed x (q ++ [e]) := by
  induction q with
  | nil => exact ⟨fun h' ↦ absurd h' he, trivial⟩
  | cons d q ih => exact ⟨fun h' ↦ List.mem_append_left _ (h.1 h'), ih h.2⟩

/-- Queueing an item's appearance makes it followed. -/
theorem followed_concat_appeared (x : Item ι ν) (q : List (Event ι ν)) :
    Followed x (q ++ [.appeared x.id]) := by
  induction q with
  | nil => exact ⟨fun h ↦ (nomatch h), trivial⟩
  | cons d q ih => exact ⟨fun _ ↦ List.mem_append_right _ (List.mem_singleton_self _), ih⟩

/-- Two events are not the appearance of the same id. -/
def NotTwice (a b : Event ι ν) : Prop := ∀ i, a = .appeared i → b ≠ .appeared i

/-- Names and ids of the present items are distinct; `seen` are the ids used so far. -/
structure Distinct (seen : ι → Prop) (present : List (Item ι ν)) : Prop where
  names : (present.map (·.name)).Nodup
  ids : (present.map (·.id)).Nodup
  present_seen : ∀ x ∈ present, seen x.id

/-- The queue is true to the present items. -/
structure Ordered (seen : ι → Prop) (present : List (Item ι ν)) (queue : List (Event ι ν)) :
    Prop extends Distinct seen present where
  queue_seen : ∀ i, .appeared i ∈ queue → seen i
  once : queue.Pairwise NotTwice
  followed : ∀ x ∈ present, Followed x queue

/-- What is held is accepted and right up to queued events; `pending` are the snapshot ids
still to be looked up. -/
structure Sound (accept : Item ι ν → Bool) (seen : ι → Prop) (present held : List (Item ι ν))
    (queue : List (Event ι ν)) (pending : List ι) : Prop
    extends Ordered seen present queue where
  held_names : (held.map (·.name)).Nodup
  held_seen : ∀ x ∈ held, seen x.id
  held_accepted : ∀ x ∈ held, accept x = true
  held_true : ∀ x ∈ held, ∀ y ∈ present, y.id = x.id → y = x
  stale : ∀ x ∈ held, x ∉ present → .vanished x.name ∈ queue
  pending_seen : ∀ i ∈ pending, seen i
  unheld : ∀ x ∈ present, x.id ∈ pending → ∀ y ∈ held, y.name = x.name → y = x

/-- Every accepted item is held, about to be looked up, or announced. -/
def Covered (accept : Item ι ν → Bool) (present held : List (Item ι ν))
    (queue : List (Event ι ν)) (pending : List ι) : Prop :=
  ∀ x ∈ present, accept x = true → x ∈ held ∨ .appeared x.id ∈ queue ∨ x.id ∈ pending

section Rules

variable {accept : Item ι ν → Bool} {seen seen' : ι → Prop} {present held : List (Item ι ν)}
  {queue : List (Event ι ν)} {pending : List ι} {x : Item ι ν}

/-- An empty queue is true to any items. -/
theorem Distinct.ordered_nil (h : Distinct seen present) : Ordered seen present [] :=
  { h with
    queue_seen := fun _ hm ↦ (nomatch hm)
    once := List.Pairwise.nil
    followed := fun _ _ ↦ trivial }

/-- Handling the first event leaves the rest of the queue true. -/
theorem Ordered.tail {e : Event ι ν} (h : Ordered seen present (e :: queue)) :
    Ordered seen present queue :=
  { h with
    queue_seen := fun i hi ↦ h.queue_seen i (List.mem_cons_of_mem e hi)
    once := (List.pairwise_cons.mp h.once).2
    followed := fun y hy ↦ (h.followed y hy).2 }

/-- A snapshot taken before anything is held is sound. -/
theorem Ordered.sound_start (h : Ordered seen present queue)
    (hp : ∀ i ∈ pending, seen i) : Sound accept seen present [] queue pending :=
  { h with
    held_names := List.nodup_nil
    held_seen := fun _ hm ↦ (nomatch hm)
    held_accepted := fun _ hm ↦ (nomatch hm)
    held_true := fun _ hm ↦ (nomatch hm)
    stale := fun _ hm ↦ (nomatch hm)
    pending_seen := hp
    unheld := fun _ _ _ _ hm ↦ (nomatch hm) }

/-! ### Items come and go -/

private theorem nodup_concat {α : Type u} {as : List α} {a : α} (h : as.Nodup) (ha : a ∉ as) :
    (as ++ [a]).Nodup := by
  rw [List.nodup_append]
  refine ⟨h, List.nodup_cons.mpr ⟨List.not_mem_nil, List.nodup_nil⟩, fun b hb c hc ↦ ?_⟩
  rw [List.mem_singleton.mp hc]
  exact fun he ↦ ha (he ▸ hb)

section Appear

variable (hnew : ¬ seen x.id) (hseen : ∀ i, seen i → seen' i) (hx : seen' x.id)
  (hname : x.name ∉ present.map (·.name))

include hnew hseen hx hname

/-- An item of a new id and an unused name appears. -/
theorem Distinct.appear (h : Distinct seen present) : Distinct seen' (present ++ [x]) := by
  refine ⟨?_, ?_, ?_⟩
  · rw [List.map_append]
    exact nodup_concat h.names hname
  · rw [List.map_append]
    refine nodup_concat h.ids fun hm ↦ ?_
    obtain ⟨y, hy, hyi⟩ := List.mem_map.mp hm
    have hs := h.present_seen y hy
    rw [hyi] at hs
    exact hnew hs
  · intro y hy
    rcases List.mem_append.mp hy with hy | hy
    · exact hseen _ (h.present_seen y hy)
    · rw [List.mem_singleton.mp hy]
      exact hx

/-- The appearance is queued. -/
theorem Ordered.appear (h : Ordered seen present queue) :
    Ordered seen' (present ++ [x]) (queue ++ [.appeared x.id]) := by
  refine ⟨h.toDistinct.appear hnew hseen hx hname, ?_, ?_, ?_⟩
  · intro i hi
    rcases List.mem_append.mp hi with hi | hi
    · exact hseen i (h.queue_seen i hi)
    · cases List.mem_singleton.mp hi
      exact hx
  · rw [List.pairwise_append]
    refine ⟨h.once, List.pairwise_singleton _ _, fun a ha b hb i hai hbi ↦ ?_⟩
    rw [List.mem_singleton.mp hb] at hbi
    cases hbi
    exact hnew (h.queue_seen _ (hai ▸ ha))
  · intro y hy
    rcases List.mem_append.mp hy with hy | hy
    · exact (h.followed y hy).concat (fun he ↦ nomatch he)
    · rw [List.mem_singleton.mp hy]
      exact followed_concat_appeared x queue

/-- What is held stays right when an item appears. -/
theorem Sound.appear (h : Sound accept seen present held queue pending) :
    Sound accept seen' (present ++ [x]) held (queue ++ [.appeared x.id]) pending := by
  refine ⟨h.toOrdered.appear hnew hseen hx hname, ?_, ?_, ?_, ?_, ?_, ?_, ?_⟩
  · exact h.held_names
  · exact fun y hy ↦ hseen _ (h.held_seen y hy)
  · exact h.held_accepted
  · intro y hy z hz hid
    rcases List.mem_append.mp hz with hz | hz
    · exact h.held_true y hy z hz hid
    · rw [List.mem_singleton.mp hz] at hid
      exact absurd (hid ▸ h.held_seen y hy) hnew
  · intro y hy hnot
    exact List.mem_append_left _
      (h.stale y hy fun hm ↦ hnot (List.mem_append_left _ hm))
  · exact fun i hi ↦ hseen i (h.pending_seen i hi)
  · intro y hy hid z hz hn
    rcases List.mem_append.mp hy with hy | hy
    · exact h.unheld y hy hid z hz hn
    · rw [List.mem_singleton.mp hy] at hid
      exact absurd (h.pending_seen _ hid) hnew

end Appear

/-- An item that appears is announced. -/
theorem Covered.appear (h : Covered accept present held queue pending) :
    Covered accept (present ++ [x]) held (queue ++ [.appeared x.id]) pending := by
  intro y hy hacc
  rcases List.mem_append.mp hy with hy | hy
  · rcases h y hy hacc with hh | hq | hp
    · exact .inl hh
    · exact .inr (.inl (List.mem_append_left _ hq))
    · exact .inr (.inr hp)
  · rw [List.mem_singleton.mp hy]
    exact .inr (.inl (List.mem_append_right _ (List.mem_singleton_self _)))

section Vanish

variable [DecidableEq ι] [DecidableEq ν]

/-- A present item vanishes. -/
theorem Distinct.vanish (h : Distinct seen present) (y : Item ι ν) :
    Distinct seen (present.erase y) :=
  ⟨h.names.sublist (List.erase_sublist.map _), h.ids.sublist (List.erase_sublist.map _),
    fun z hz ↦ h.present_seen z (List.mem_of_mem_erase hz)⟩

/-- Among distinct items, the others stay and have other names. -/
theorem Distinct.mem_vanish (h : Distinct seen present) (hx : x ∈ present) {y : Item ι ν} :
    y ∈ present.erase x ↔ y ∈ present ∧ y.name ≠ x.name := by
  have hnd : present.Nodup :=
    List.Pairwise.of_map (·.name) (fun _ _ hne he ↦ hne (congrArg _ he)) h.names
  rw [hnd.mem_erase_iff, and_comm]
  refine and_congr_right fun hy ↦ not_congr ⟨fun he ↦ congrArg _ he, fun hn ↦ ?_⟩
  exact eq_of_key_eq (·.name) h.names hy hx hn

/-- The disappearance is queued. -/
theorem Ordered.vanish (h : Ordered seen present queue) (hx : x ∈ present) :
    Ordered seen (present.erase x) (queue ++ [.vanished x.name]) := by
  refine ⟨h.toDistinct.vanish x, ?_, ?_, ?_⟩
  · intro i hi
    rcases List.mem_append.mp hi with hi | hi
    · exact h.queue_seen i hi
    · cases List.mem_singleton.mp hi
  · rw [List.pairwise_append]
    refine ⟨h.once, List.pairwise_singleton _ _, fun a ha b hb i hai hbi ↦ ?_⟩
    rw [List.mem_singleton.mp hb] at hbi
    cases hbi
  · intro y hy
    obtain ⟨hy', hne⟩ := (h.mem_vanish hx).mp hy
    refine (h.followed y hy').concat fun he ↦ hne ?_
    exact (Event.vanished.inj he).symm

/-- What is held stays right when an item vanishes. -/
theorem Sound.vanish (h : Sound accept seen present held queue pending) (hx : x ∈ present) :
    Sound accept seen (present.erase x) held (queue ++ [.vanished x.name]) pending := by
  refine ⟨h.toOrdered.vanish hx, ?_, ?_, ?_, ?_, ?_, ?_, ?_⟩
  · exact h.held_names
  · exact h.held_seen
  · exact h.held_accepted
  · exact fun y hy z hz ↦ h.held_true y hy z (List.mem_of_mem_erase hz)
  · intro y hy hnot
    by_cases hp : y ∈ present
    · have hn : y.name = x.name := by
        apply Classical.not_not.mp
        exact fun hne ↦ hnot ((h.mem_vanish hx).mpr ⟨hp, hne⟩)
      rw [hn]
      exact List.mem_append_right _ (List.mem_singleton_self _)
    · exact List.mem_append_left _ (h.stale y hy hp)
  · exact h.pending_seen
  · exact fun y hy ↦ h.unheld y (List.mem_of_mem_erase hy)

/-- An item that vanishes needs no cover. -/
theorem Covered.vanish (h : Covered accept present held queue pending) (y : Item ι ν)
    (e : Event ι ν) : Covered accept (present.erase y) held (queue ++ [e]) pending := by
  intro z hz hacc
  rcases h z (List.mem_of_mem_erase hz) hacc with hh | hq | hp
  · exact .inl hh
  · exact .inr (.inl (List.mem_append_left _ hq))
  · exact .inr (.inr hp)

end Vanish

/-! ### The observer acts -/

private theorem Sound.cons (h : Sound accept seen present held queue pending)
    (hx : x ∈ present) (hacc : accept x = true) (hname : ∀ y ∈ held, y.name ≠ x.name) :
    Sound accept seen present (x :: held) queue pending := by
  refine ⟨h.toOrdered, ?_, ?_, ?_, ?_, ?_, h.pending_seen, ?_⟩
  · rw [List.map_cons, List.nodup_cons]
    refine ⟨fun hm ↦ ?_, h.held_names⟩
    obtain ⟨y, hy, hn⟩ := List.mem_map.mp hm
    exact hname y hy hn
  · intro y hy
    rcases List.mem_cons.mp hy with rfl | hy
    · exact h.present_seen y hx
    · exact h.held_seen y hy
  · intro y hy
    rcases List.mem_cons.mp hy with rfl | hy
    · exact hacc
    · exact h.held_accepted y hy
  · intro y hy z hz hid
    rcases List.mem_cons.mp hy with rfl | hy
    · exact eq_of_key_eq (·.id) h.ids hz hx hid
    · exact h.held_true y hy z hz hid
  · intro y hy hnot
    rcases List.mem_cons.mp hy with rfl | hy
    · exact absurd hx hnot
    · exact h.stale y hy hnot
  · intro y hy hid z hz hn
    rcases List.mem_cons.mp hz with rfl | hz
    · exact eq_of_key_eq (·.name) h.names hx hy hn
    · exact h.unheld y hy hid z hz hn

section Hold

variable [DecidableEq ι]

/-- Look up an id and hold the item, unless one of that id is held or it is not accepted. -/
def hold (accept : Item ι ν → Bool) (present held : List (Item ι ν)) (i : ι) :
    List (Item ι ν) :=
  if held.any (fun y ↦ y.id = i) then held
  else
    match present.find? (fun y ↦ y.id = i) with
    | some y => if accept y then y :: held else held
    | none => held

/-- `hold` changes nothing, and then holds the item already if there is an accepted one, or
it adds the accepted item of that id. -/
theorem hold_cases (accept : Item ι ν → Bool) {present held : List (Item ι ν)}
    (hids : (present.map (·.id)).Nodup)
    (htrue : ∀ y ∈ held, ∀ z ∈ present, z.id = y.id → z = y) (i : ι) :
    (hold accept present held i = held ∧ ∀ y ∈ present, y.id = i → accept y = true → y ∈ held) ∨
    ∃ y ∈ present, y.id = i ∧ accept y = true ∧ (∀ z ∈ held, z.id ≠ i) ∧
      hold accept present held i = y :: held := by
  unfold hold
  by_cases hany : held.any (fun y ↦ y.id = i) = true
  · left
    rw [if_pos hany]
    refine ⟨rfl, fun y hy hyi _ ↦ ?_⟩
    obtain ⟨z, hz, hzi⟩ := List.any_eq_true.mp hany
    rw [htrue z hz y hy (hyi.trans (of_decide_eq_true hzi).symm)]
    exact hz
  · rw [if_neg hany]
    have hnone : ∀ z ∈ held, z.id ≠ i := fun z hz hzi ↦
      hany (List.any_eq_true.mpr ⟨z, hz, decide_eq_true hzi⟩)
    cases hfind : present.find? (fun y ↦ decide (y.id = i)) with
    | none =>
      refine .inl ⟨rfl, fun y hy hyi _ ↦ ?_⟩
      exact absurd (decide_eq_true hyi) (List.find?_eq_none.mp hfind y hy)
    | some y =>
      have hy := List.mem_of_find?_eq_some hfind
      have hyi : y.id = i := by simpa using List.find?_some hfind
      by_cases hacc : accept y = true
      · exact .inr ⟨y, hy, hyi, hacc, hnone, if_pos hacc⟩
      · refine .inl ⟨if_neg hacc, fun z hz hzi hz' ↦ ?_⟩
        rw [eq_of_key_eq (·.id) hids hz hy (hzi.trans hyi.symm)] at hz'
        exact absurd hz' hacc

/-- Handling an appearance keeps what is held right. -/
theorem Sound.handleAppeared {i : ι}
    (h : Sound accept seen present held (.appeared i :: queue) pending) :
    Sound accept seen present (hold accept present held i) queue pending := by
  have htail : Sound accept seen present held queue pending :=
    { h.toOrdered.tail, h with
      stale := fun y hy hnot ↦ (List.mem_cons.mp (h.stale y hy hnot)).resolve_left
        (fun he ↦ nomatch he) }
  rcases hold_cases accept h.ids h.held_true i with ⟨he, _⟩ | ⟨y, hy, rfl, hacc, hnone, he⟩
  · rw [he]
    exact htail
  · rw [he]
    refine htail.cons hy hacc fun z hz hn ↦ ?_
    -- An older holder of the name has vanished, so this appearance would be queued again.
    have hgone : z ∉ present := fun hp ↦
      hnone z hz (congrArg _ (eq_of_key_eq (·.name) h.names hp hy hn))
    have hv := htail.stale z hz hgone
    rw [hn] at hv
    exact (List.pairwise_cons.mp h.once).1 _ ((htail.followed y hy).appeared_mem hv) _ rfl rfl

/-- Looking up an id drops nothing that is held. -/
theorem Sound.subset_hold (h : Sound accept seen present held queue pending) (i : ι)
    {y : Item ι ν} (hy : y ∈ held) : y ∈ hold accept present held i := by
  rcases hold_cases accept h.ids h.held_true i with ⟨he, _⟩ | ⟨z, _, _, _, _, he⟩
  · rw [he]
    exact hy
  · rw [he]
    exact List.mem_cons_of_mem z hy

/-- Looking up the id of a present and accepted item holds it. -/
theorem Sound.mem_hold (h : Sound accept seen present held queue pending) {y : Item ι ν}
    (hy : y ∈ present) (hacc : accept y = true) : y ∈ hold accept present held y.id := by
  rcases hold_cases accept h.ids h.held_true y.id with ⟨he, hin⟩ | ⟨z, hz, hzi, _, _, he⟩
  · rw [he]
    exact hin y hy rfl hacc
  · rw [he, eq_of_key_eq (·.id) h.ids hy hz hzi.symm]
    exact List.mem_cons_self

/-- Handling an appearance keeps everything covered. -/
theorem Covered.handleAppeared {i : ι}
    (h : Sound accept seen present held (.appeared i :: queue) pending)
    (hc : Covered accept present held (.appeared i :: queue) pending) :
    Covered accept present (hold accept present held i) queue pending := by
  intro y hy hacc
  rcases hc y hy hacc with hh | hq | hp
  · exact .inl (h.subset_hold i hh)
  · rcases List.mem_cons.mp hq with he | hq
    · obtain rfl := Event.appeared.inj he
      exact .inl (h.mem_hold hy hacc)
    · exact .inr (.inl hq)
  · exact .inr (.inr hp)

/-- Looking up a snapshot id keeps what is held right. -/
theorem Sound.takePending {i : ι} (h : Sound accept seen present held queue (i :: pending)) :
    Sound accept seen present (hold accept present held i) queue pending := by
  have htail : Sound accept seen present held queue pending :=
    { h with
      pending_seen := fun j hj ↦ h.pending_seen j (List.mem_cons_of_mem i hj)
      unheld := fun y hy hid ↦ h.unheld y hy (List.mem_cons_of_mem i hid) }
  rcases hold_cases accept h.ids h.held_true i with ⟨he, _⟩ | ⟨y, hy, rfl, hacc, hnone, he⟩
  · rw [he]
    exact htail
  · rw [he]
    refine htail.cons hy hacc fun z hz hn ↦ hnone z hz ?_
    rw [h.unheld y hy List.mem_cons_self z hz hn]

/-- Looking up a snapshot id keeps everything covered. -/
theorem Covered.takePending {i : ι}
    (h : Sound accept seen present held queue (i :: pending))
    (hc : Covered accept present held queue (i :: pending)) :
    Covered accept present (hold accept present held i) queue pending := by
  intro y hy hacc
  rcases hc y hy hacc with hh | hq | hp
  · exact .inl (h.subset_hold i hh)
  · exact .inr (.inl hq)
  · rcases List.mem_cons.mp hp with rfl | hp
    · exact .inl (h.mem_hold hy hacc)
    · exact .inr (.inr hp)

end Hold

section Release

variable [DecidableEq ν]

/-- Drop the first item held under a name. -/
def release (held : List (Item ι ν)) (n : ν) : List (Item ι ν) :=
  held.eraseP (fun y ↦ y.name = n)

/-- With distinct names, releasing a name drops exactly the item held under it. -/
theorem mem_release {held : List (Item ι ν)} (h : (held.map (·.name)).Nodup) (n : ν)
    {y : Item ι ν} : y ∈ release held n ↔ y ∈ held ∧ y.name ≠ n := by
  constructor
  · intro hy
    refine ⟨List.mem_of_mem_eraseP hy, fun hn ↦ ?_⟩
    exact not_mem_map_eraseP Item.name h n (List.mem_map.mpr ⟨y, hy, hn⟩)
  · rintro ⟨hy, hn⟩
    refine (List.mem_eraseP_of_neg ?_).mpr hy
    simpa using hn

/-- Handling a disappearance keeps what is held right. -/
theorem Sound.handleVanished {n : ν}
    (h : Sound accept seen present held (.vanished n :: queue) pending) :
    Sound accept seen present (release held n) queue pending := by
  have hsub : ∀ y ∈ release held n, y ∈ held := fun y hy ↦ List.mem_of_mem_eraseP hy
  refine ⟨h.toOrdered.tail, ?_, ?_, ?_, ?_, ?_, h.pending_seen, ?_⟩
  · exact h.held_names.sublist (List.eraseP_sublist.map _)
  · exact fun y hy ↦ h.held_seen y (hsub y hy)
  · exact fun y hy ↦ h.held_accepted y (hsub y hy)
  · exact fun y hy ↦ h.held_true y (hsub y hy)
  · intro y hy hnot
    obtain ⟨hy', hne⟩ := (mem_release h.held_names n).mp hy
    exact (List.mem_cons.mp (h.stale y hy' hnot)).resolve_left
      fun he ↦ hne (Event.vanished.inj he)
  · exact fun y hy hid z hz ↦ h.unheld y hy hid z (hsub z hz)

/-- Handling a disappearance keeps everything covered: an item that took the name over is
announced by a later event. -/
theorem Covered.handleVanished {n : ν}
    (h : Sound accept seen present held (.vanished n :: queue) pending)
    (hc : Covered accept present held (.vanished n :: queue) pending) :
    Covered accept present (release held n) queue pending := by
  intro y hy hacc
  rcases hc y hy hacc with hh | hq | hp
  · by_cases hn : y.name = n
    · exact .inr (.inl ((h.followed y hy).1 (congrArg _ hn.symm)))
    · exact .inl ((mem_release h.held_names n).mpr ⟨hh, hn⟩)
  · exact .inr (.inl ((List.mem_cons.mp hq).resolve_left fun he ↦ nomatch he))
  · exact .inr (.inr hp)

end Release

/-- With nothing queued and nothing pending, exactly the accepted items are held. -/
theorem Sound.agree (h : Sound accept seen present held [] [])
    (hc : Covered accept present held [] []) : x ∈ held ↔ x ∈ present ∧ accept x = true := by
  constructor
  · intro hx
    refine ⟨Classical.byContradiction fun hnot ↦ ?_, h.held_accepted x hx⟩
    exact List.not_mem_nil (h.stale x hx hnot)
  · rintro ⟨hx, hacc⟩
    rcases hc x hx hacc with hh | hq | hp
    · exact hh
    · exact absurd hq List.not_mem_nil
    · exact absurd hp List.not_mem_nil

end Rules

end Memlink.Mirror

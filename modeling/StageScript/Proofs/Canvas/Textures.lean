/-
# Whose picture a texture shows

A result carries a name and nothing that says which rebuild asked for it.  So it is not enough
that a rebuild forgets what is pending: it makes the names of its library pending again, and a
result of an earlier rebuild that is still under way is then taken for the new picture
(`rebuild_takes_late_result`).  The result that was meant arrives later and is dropped.

What holds in every order of events is that a texture is the picture of its name in some library
so far, and that the library of the last rebuild has a picture of that name.  It is the picture
of that library, and comes once the job has ended and its result has been polled, in every order
of later events just when what is under way for the name at the rebuild decodes to the same
(`Agrees`): the oldest result that waits for the name, or, if none waits, each running job.

A name stands in one of two ways behind a rebuild (`Stands`): its picture is awaited, and all
that can be taken for it decodes to the right texture; or it is settled, and stays so.
-/
import Mathlib.Data.List.Nodup
import Mathlib.Data.List.Perm.Basic
import StageScript.Canvas.Textures

namespace StageScript

/-! ## 1. Libraries hold one asset for a name -/

namespace Library

theorem any_name_iff {l : Library} {name : String} :
    l.assets.any (·.name == name) = true ↔ name ∈ l.assets.map Asset.name := by
  simp

theorem nodup_insert {l : Library} (h : (l.assets.map Asset.name).Nodup) (a : Asset) :
    ((l.insert a).assets.map Asset.name).Nodup := by
  unfold insert
  split
  · -- the asset takes the place of one with its name
    have hsame : (l.assets.map fun b => if b.name == a.name then a else b).map Asset.name
        = l.assets.map Asset.name := by
      rw [List.map_map]
      refine List.map_congr_left fun b _ => ?_
      by_cases hb : b.name = a.name <;> simp [hb]
    exact hsame ▸ h
  · rename_i hnew
    rw [any_name_iff] at hnew
    rw [List.map_append]
    exact h.append (List.nodup_singleton _) (by simpa using hnew)

/-- A library holds one asset for a name. -/
theorem nodup_insertAll (as : List Asset) :
    ((empty.insertAll as).assets.map Asset.name).Nodup := by
  have hfold : ∀ (as : List Asset) {l : Library}, (l.assets.map Asset.name).Nodup →
      ((l.insertAll as).assets.map Asset.name).Nodup := by
    intro as
    induction as with
    | nil => exact id
    | cons a as ih => exact fun h => ih (nodup_insert h a)
  exact hfold as List.nodup_nil

/-- The pictures of a library. -/
def images (l : Library) : List Asset := l.assets.filter fun a => a.kind == .image

variable {l : Library} {a b : Asset}

/-- The asset of a name is the only one with it. -/
theorem find?_eq_some_iff (h : (l.assets.map Asset.name).Nodup) {name : String} :
    l.find? name = some a ↔ a ∈ l.assets ∧ a.name = name := by
  constructor
  · intro hfind
    exact ⟨List.mem_of_find?_eq_some hfind, by simpa using List.find?_some hfind⟩
  · rintro ⟨hmem, rfl⟩
    have hsome : (l.find? a.name).isSome := by
      simpa [find?] using ⟨a, hmem, rfl⟩
    obtain ⟨b, hb⟩ := Option.isSome_iff_exists.mp hsome
    have hname : b.name = a.name := by simpa using List.find?_some hb
    rw [hb, List.inj_on_of_nodup_map h (List.mem_of_find?_eq_some hb) hmem hname]

end Library

/-! ## 2. Events -/

namespace Textures

/-- What happens to textures. -/
inductive Event where
  /-- The pictures of the library of these assets are asked for anew. -/
  | rebuild (assets : List Asset)
  /-- The running job at a place ends. -/
  | finish (i : Nat)
  | poll

namespace Event

/-- The event asks for the pictures of a library. -/
def isRebuild : Event → Bool
  | rebuild _ => true
  | _ => false

end Event

variable {τ : Type}

/-- What an event does. -/
def after (decode : ByteArray → Option τ) (t : Textures τ) : Event → Textures τ
  | .rebuild as => t.rebuild (Library.empty.insertAll as)
  | .finish i => t.finish decode i
  | .poll => t.poll

/-- What events do in their order. -/
def play (decode : ByteArray → Option τ) (t : Textures τ) (es : List Event) : Textures τ :=
  es.foldl (after decode) t

/-! ## 3. One name -/

variable {decode : ByteArray → Option τ} {t : Textures τ} {name : String} {v : Option τ} {n : Nat}

/-- The number of jobs and results that are under way for a name. -/
def underWay (t : Textures τ) (name : String) : Nat :=
  t.jobs.countP (·.name == name) + t.results.countP (·.1 == name)

/-- What can be taken for the name decodes to `v`: the oldest result that waits, or, if none
waits, each running job. -/
def Agrees (decode : ByteArray → Option τ) (t : Textures τ) (name : String) (v : Option τ) : Prop :=
  match t.results.find? (·.1 == name) with
  | some r => r.2 = v
  | none => ∀ job ∈ t.jobs, job.name = name → decode job.data = v

/-- How a name stands behind a rebuild that has the picture `v` for it; `n` is what was under way
for it before. -/
inductive Stands (decode : ByteArray → Option τ) (name : String) (v : Option τ) (n : Nat)
    (t : Textures τ) : Prop
  | awaited (pending : name ∈ t.pending) (ready : t.get? name = none)
      (underWay : t.underWay name = n + 1) (agrees : Agrees decode t name v)
  | settled (pending : name ∉ t.pending) (ready : t.get? name = v)

/-! ## 4. Polls -/

theorem mem_pending_take {r : String × Option τ} :
    name ∈ (t.take r).pending ↔ name ∈ t.pending ∧ r.1 ≠ name := by
  unfold take
  split
  · simp [ne_comm]
  · rename_i hnot
    have hnot : r.1 ∉ t.pending := by simpa using hnot
    exact ⟨fun h => ⟨h, fun heq => hnot (heq ▸ h)⟩, And.left⟩

theorem get?_take (r : String × Option τ) :
    (t.take r).get? name
      = if name ∈ t.pending ∧ r.1 = name then r.2.or (t.get? name) else t.get? name := by
  obtain ⟨n, x⟩ := r
  by_cases hmem : n ∈ t.pending
  · by_cases heq : n = name
    · subst heq
      cases x <;> simp [take, get?, hmem]
    · cases x <;> simp [take, get?, hmem, heq]
  · have hnot : ¬(name ∈ t.pending ∧ n = name) := fun h => hmem (h.2 ▸ h.1)
    rw [if_neg hnot]
    simp [take, hmem]

theorem jobs_foldl_take (rs : List (String × Option τ)) :
    (rs.foldl take t).jobs = t.jobs ∧ (rs.foldl take t).results = t.results := by
  induction rs generalizing t with
  | nil => exact ⟨rfl, rfl⟩
  | cons r rs ih =>
    have hstep : (t.take r).jobs = t.jobs ∧ (t.take r).results = t.results := by
      unfold take
      split <;> exact ⟨rfl, rfl⟩
    exact ⟨ih.1.trans hstep.1, ih.2.trans hstep.2⟩

theorem mem_pending_foldl_take (rs : List (String × Option τ)) :
    name ∈ (rs.foldl take t).pending ↔
      name ∈ t.pending ∧ rs.find? (·.1 == name) = none := by
  induction rs generalizing t with
  | nil => simp
  | cons r rs ih =>
    rw [List.foldl_cons, ih, mem_pending_take]
    by_cases heq : r.1 = name
    · simp [heq]
    · rw [List.find?_cons_of_neg (by simpa using heq)]
      simp [heq]

/-- Of several results for a name the first is taken. -/
theorem get?_foldl_take (rs : List (String × Option τ)) :
    (rs.foldl take t).get? name
      = if name ∈ t.pending then ((rs.find? (·.1 == name)).bind Prod.snd).or (t.get? name)
        else t.get? name := by
  induction rs generalizing t with
  | nil => simp
  | cons r rs ih =>
    rw [List.foldl_cons, ih, get?_take]
    by_cases heq : r.1 = name
    · by_cases hmem : name ∈ t.pending <;> simp [mem_pending_take, hmem, heq]
    · rw [List.find?_cons_of_neg (by simpa using heq)]
      simp [mem_pending_take, heq]

@[simp] theorem poll_jobs : t.poll.jobs = t.jobs := (jobs_foldl_take _).1

@[simp] theorem poll_results : t.poll.results = [] := (jobs_foldl_take _).2

theorem mem_pending_poll :
    name ∈ t.poll.pending ↔ name ∈ t.pending ∧ t.results.find? (·.1 == name) = none :=
  mem_pending_foldl_take _

theorem get?_poll :
    t.poll.get? name
      = if name ∈ t.pending then ((t.results.find? (·.1 == name)).bind Prod.snd).or (t.get? name)
        else t.get? name :=
  get?_foldl_take _

/-- A poll takes the oldest result for a name that is awaited. -/
theorem poll_of_find? (hpending : name ∈ t.pending) (hready : t.get? name = none)
    {r : String × Option τ} (hfirst : t.results.find? (·.1 == name) = some r) :
    t.poll.get? name = r.2 ∧ t.poll.underWay name < t.underWay name := by
  have hpos : 0 < t.results.countP (·.1 == name) :=
    List.countP_pos_iff.mpr ⟨r, List.mem_of_find?_eq_some hfirst,
      by simpa using List.find?_some hfirst⟩
  refine ⟨by simp [get?_poll, hpending, hfirst, hready], ?_⟩
  simp only [underWay, poll_jobs, poll_results, List.countP_nil]
  omega

theorem stands_poll (h : Stands decode name v n t) : Stands decode name v n t.poll := by
  obtain ⟨hpending, hready, hcount, hagrees⟩ | ⟨hpending, hready⟩ := h
  · cases hfirst : t.results.find? (·.1 == name) with
    | none =>
      -- nothing waits for the name, so the poll leaves it as it is
      have hnone : t.results.countP (·.1 == name) = 0 := by
        rw [List.countP_eq_zero]
        simpa using hfirst
      refine .awaited (mem_pending_poll.mpr ⟨hpending, hfirst⟩) ?_ ?_ ?_
      · simp [get?_poll, hpending, hfirst, hready]
      · simpa [underWay, hnone] using hcount
      · simpa [Agrees, hfirst] using hagrees
    | some r =>
      have hr : r.2 = v := by simpa [Agrees, hfirst] using hagrees
      refine .settled (fun hmem => ?_) ?_
      · simp [(mem_pending_poll.mp hmem).2] at hfirst
      · exact (poll_of_find? hpending hready hfirst).1.trans hr
  · refine .settled (fun hmem => hpending (mem_pending_poll.mp hmem).1) ?_
    simpa [get?_poll, hpending] using hready

/-! ## 5. Jobs that end -/

theorem finish_of_getElem? {i : Nat} {job : DecodeJob} (h : t.jobs[i]? = some job) :
    t.finish decode i = { t with
      jobs := t.jobs.eraseIdx i, results := t.results ++ [(job.name, decode job.data)] } := by
  simp [finish, h]

/-- A job that ends is under way as a result. -/
theorem underWay_finish (i : Nat) : (t.finish decode i).underWay name = t.underWay name := by
  unfold finish
  split
  · rfl
  · rename_i job hjob
    obtain ⟨hi, rfl⟩ := List.getElem?_eq_some_iff.mp hjob
    have hcount := (List.getElem_cons_eraseIdx_perm hi).countP_eq (·.name == name)
    rw [List.countP_cons] at hcount
    simp only [underWay, List.countP_append, List.countP_singleton]
    omega

theorem agrees_finish (h : Agrees decode t name v) (i : Nat) :
    Agrees decode (t.finish decode i) name v := by
  unfold finish
  split
  · exact h
  · rename_i job hjob
    have hmem : job ∈ t.jobs := List.mem_of_getElem? hjob
    cases hfirst : t.results.find? (·.1 == name) with
    | some r =>
      simpa [Agrees, List.find?_append, hfirst] using h
    | none =>
      have hjobs : ∀ job ∈ t.jobs, job.name = name → decode job.data = v := by
        simpa [Agrees, hfirst] using h
      by_cases hname : job.name = name
      · simpa [Agrees, List.find?_append, hfirst, hname] using hjobs job hmem hname
      · simpa [Agrees, List.find?_append, hfirst, hname] using
          fun job hjob => hjobs job (List.mem_of_mem_eraseIdx hjob)

theorem stands_finish (h : Stands decode name v n t) (i : Nat) :
    Stands decode name v n (t.finish decode i) := by
  have hkeep : (t.finish decode i).pending = t.pending
      ∧ (t.finish decode i).get? name = t.get? name := by
    unfold finish
    split <;> exact ⟨rfl, rfl⟩
  obtain ⟨hpending, hready, hcount, hagrees⟩ | ⟨hpending, hready⟩ := h
  · exact .awaited (hkeep.1 ▸ hpending) (hkeep.2.trans hready)
      ((underWay_finish i).trans hcount) (agrees_finish hagrees i)
  · exact .settled (hkeep.1 ▸ hpending) (hkeep.2.trans hready)

theorem stands_play {es : List Event} (hes : ∀ e ∈ es, e.isRebuild = false)
    (h : Stands decode name v n t) : Stands decode name v n (play decode t es) := by
  induction es generalizing t with
  | nil => exact h
  | cons e es ih =>
    rw [List.forall_mem_cons] at hes
    refine ih hes.2 ?_
    cases e with
    | rebuild as => simp [Event.isRebuild] at hes
    | finish i => exact stands_finish h i
    | poll => exact stands_poll h

/-! ## 6. Rebuilds -/

/-- The job that decodes a picture. -/
def jobOf (a : Asset) : DecodeJob := ⟨a.name, a.data⟩

/-- Pictures with names of their own that are neither ready nor pending are all begun. -/
theorem foldl_request {as : List Asset} (hnames : (as.map Asset.name).Nodup)
    (hnew : ∀ a ∈ as, t.get? a.name = none ∧ a.name ∉ t.pending) :
    as.foldl request t = { t with
      pending := t.pending ++ as.map Asset.name, jobs := t.jobs ++ as.map jobOf } := by
  induction as generalizing t with
  | nil => simp
  | cons a as ih =>
    rw [List.forall_mem_cons] at hnew
    rw [List.map_cons, List.nodup_cons] at hnames
    have hrequest : t.request a
        = { t with pending := t.pending ++ [a.name], jobs := t.jobs ++ [jobOf a] } := by
      simp [request, hnew.1, jobOf]
    rw [List.foldl_cons, hrequest, ih hnames.2]
    · simp
    · intro b hb
      have hne : b.name ≠ a.name := fun heq => hnames.1 (List.mem_map.mpr ⟨b, hb, heq⟩)
      obtain ⟨hready, hpending⟩ := hnew.2 b hb
      exact ⟨hready, by simp [hpending, hne]⟩

variable {l : Library} {a : Asset}

/-- A rebuild awaits the pictures of its library, and only these; what was under way stays so. -/
theorem rebuild_eq (hl : (l.assets.map Asset.name).Nodup) :
    t.rebuild l
      = ⟨[], l.images.map Asset.name, t.jobs ++ l.images.map jobOf, t.results⟩ := by
  have hnames : (l.images.map Asset.name).Nodup :=
    hl.sublist (List.filter_sublist.map _)
  refine (foldl_request hnames ?_).trans ?_
  · exact fun a _ => ⟨rfl, List.not_mem_nil⟩
  · simp [Library.images]

theorem underWay_rebuild (hl : (l.assets.map Asset.name).Nodup) (ha : a ∈ l.images) :
    (t.rebuild l).underWay a.name = t.underWay a.name + 1 := by
  have hnames : (l.images.map Asset.name).Nodup := hl.sublist (List.filter_sublist.map _)
  have hone : (l.images.map jobOf).countP (·.name == a.name) = 1 := by
    have hcount := List.count_eq_one_of_mem hnames (List.mem_map_of_mem ha)
    rw [List.count_eq_countP, List.countP_map] at hcount
    rwa [List.countP_map]
  rw [rebuild_eq hl]
  simp only [underWay, List.countP_append, hone]
  omega

/-- What was under way agrees with the picture of a rebuild just when all that is under way
behind the rebuild does. -/
theorem agrees_rebuild_iff (hl : (l.assets.map Asset.name).Nodup) (ha : a ∈ l.images) :
    Agrees decode (t.rebuild l) a.name (decode a.data)
      ↔ Agrees decode t a.name (decode a.data) := by
  have hown : ∀ b ∈ l.images, b.name = a.name → decode b.data = decode a.data := by
    intro b hb hname
    rw [List.inj_on_of_nodup_map hl (List.mem_of_mem_filter hb) (List.mem_of_mem_filter ha) hname]
  rw [rebuild_eq hl]
  cases hfirst : t.results.find? (·.1 == a.name) with
  | some r => simp [Agrees, hfirst]
  | none =>
    simp only [Agrees, hfirst, List.forall_mem_append, List.forall_mem_map, jobOf]
    exact ⟨And.left, fun h => ⟨h, hown⟩⟩

theorem stands_rebuild (hl : (l.assets.map Asset.name).Nodup) (ha : a ∈ l.images)
    (h : Agrees decode t a.name (decode a.data)) :
    Stands decode a.name (decode a.data) (t.underWay a.name) (t.rebuild l) := by
  refine .awaited ?_ ?_ (underWay_rebuild hl ha) ((agrees_rebuild_iff hl ha).mpr h)
  · exact rebuild_eq (t := t) hl ▸ List.mem_map_of_mem ha
  · rw [rebuild_eq hl]
    rfl

/-- A name that has no picture in the library has no texture behind the rebuild. -/
theorem stands_rebuild_of_not_mem (hl : (l.assets.map Asset.name).Nodup)
    (hname : name ∉ l.images.map Asset.name) : Stands decode name none n (t.rebuild l) := by
  rw [rebuild_eq hl]
  exact .settled hname rfl

/-! ## 7. Where textures come from -/

/-- Everything under way and every texture comes from bytes that `P` allows for its name. -/
structure Sourced (decode : ByteArray → Option τ) (P : String → ByteArray → Prop)
    (t : Textures τ) : Prop where
  jobs : ∀ job ∈ t.jobs, P job.name job.data
  results : ∀ r ∈ t.results, ∃ data, P r.1 data ∧ decode data = r.2
  ready : ∀ r ∈ t.ready, ∃ data, P r.1 data ∧ decode data = some r.2

namespace Sourced

variable {P : String → ByteArray → Prop}

theorem take (h : Sourced decode P t) {r : String × Option τ}
    (hr : ∃ data, P r.1 data ∧ decode data = r.2) : Sourced decode P (t.take r) := by
  unfold Textures.take
  split
  · refine ⟨h.jobs, h.results, ?_⟩
    cases hx : r.2 with
    | none => exact h.ready
    | some x => exact List.forall_mem_cons.mpr ⟨hx ▸ hr, h.ready⟩
  · exact h

theorem foldl_take (h : Sourced decode P t) {rs : List (String × Option τ)}
    (hrs : ∀ r ∈ rs, ∃ data, P r.1 data ∧ decode data = r.2) :
    Sourced decode P (rs.foldl Textures.take t) := by
  induction rs generalizing t with
  | nil => exact h
  | cons r rs ih =>
    rw [List.forall_mem_cons] at hrs
    exact ih (h.take hrs.1) hrs.2

theorem finish (h : Sourced decode P t) (i : Nat) : Sourced decode P (t.finish decode i) := by
  unfold Textures.finish
  split
  · exact h
  · rename_i job hjob
    refine ⟨fun job hjob => h.jobs job (List.mem_of_mem_eraseIdx hjob), ?_, h.ready⟩
    refine List.forall_mem_append.mpr ⟨h.results, List.forall_mem_singleton.mpr ?_⟩
    exact ⟨job.data, h.jobs job (List.mem_of_getElem? hjob), rfl⟩

theorem rebuild (h : Sourced decode P t) {l : Library}
    (hl : (l.assets.map Asset.name).Nodup) (hP : ∀ a ∈ l.images, P a.name a.data) :
    Sourced decode P (t.rebuild l) := by
  rw [rebuild_eq hl]
  refine ⟨List.forall_mem_append.mpr ⟨h.jobs, List.forall_mem_map.mpr hP⟩, h.results, ?_⟩
  exact fun r hr => absurd hr List.not_mem_nil

theorem play (h : Sourced decode P t) {es : List Event}
    (hP : ∀ as, .rebuild as ∈ es →
      ∀ a ∈ (Library.empty.insertAll as).images, P a.name a.data) :
    Sourced decode P (play decode t es) := by
  induction es generalizing t with
  | nil => exact h
  | cons e es ih =>
    refine ih ?_ fun as has => hP as (List.mem_cons_of_mem _ has)
    cases e with
    | rebuild as => exact h.rebuild (Library.nodup_insertAll as) (hP as List.mem_cons_self)
    | finish i => exact h.finish i
    | poll =>
      have hrest : Sourced decode P { t with results := [] } :=
        ⟨h.jobs, fun r hr => absurd hr List.not_mem_nil, h.ready⟩
      exact hrest.foldl_take h.results

end Sourced

/-! ## 8. What a texture shows -/

/-- A texture is the picture of its name in the library of some rebuild. -/
theorem get?_play_empty (es : List Event) {x : τ} (h : (play decode empty es).get? name = some x) :
    ∃ as a, .rebuild as ∈ es ∧ (Library.empty.insertAll as).find? name = some a
      ∧ a.kind = .image ∧ decode a.data = some x := by
  have hsourced : Sourced decode (fun name data => ∃ as a, .rebuild as ∈ es
      ∧ a ∈ (Library.empty.insertAll as).images ∧ a.name = name ∧ a.data = data)
      (play decode empty es) := by
    refine Sourced.play ⟨?_, ?_, ?_⟩ fun as has a ha => ⟨as, a, has, ha, rfl, rfl⟩ <;>
      exact fun r hr => absurd hr List.not_mem_nil
  obtain ⟨r, hfind, rfl⟩ := Option.map_eq_some_iff.mp h
  have hname : r.1 = name := by simpa using List.find?_some hfind
  obtain ⟨_, ⟨as, a, has, ha, haname, rfl⟩, hdecode⟩ :=
    hsourced.ready r (List.mem_of_find?_eq_some hfind)
  obtain ⟨hmem, hkind⟩ := List.mem_filter.mp ha
  refine ⟨as, a, has, ?_, by simpa using hkind, hdecode⟩
  exact (Library.find?_eq_some_iff (Library.nodup_insertAll as)).mpr ⟨hmem, haname.trans hname⟩

/-- A name that has no picture in the library of the last rebuild has no texture. -/
theorem mem_images_of_get? (hl : (l.assets.map Asset.name).Nodup) {es : List Event}
    (hes : ∀ e ∈ es, e.isRebuild = false) {x : τ}
    (h : (play decode (t.rebuild l) es).get? name = some x) :
    ∃ a ∈ l.images, a.name = name := by
  by_contra hno
  have hname : name ∉ l.images.map Asset.name := fun hmem => hno (List.mem_map.mp hmem)
  have hrebuild : Stands decode name none 0 (t.rebuild l) := stands_rebuild_of_not_mem hl hname
  obtain ⟨-, hready, -, -⟩ | ⟨-, hready⟩ := stands_play hes hrebuild
  all_goals simp [hready] at h

/-- What a name shows behind the last rebuild, in every order of the events that follow: nothing
but `v`, and `v` once a result for the name has been taken. -/
def Shows (decode : ByteArray → Option τ) (t : Textures τ) (l : Library) (name : String)
    (v : Option τ) : Prop :=
  ∀ es : List Event, (∀ e ∈ es, e.isRebuild = false) →
    (∀ x, (play decode (t.rebuild l) es).get? name = some x → v = some x)
      ∧ ((play decode (t.rebuild l) es).underWay name ≤ t.underWay name →
          (play decode (t.rebuild l) es).get? name = v)

theorem shows_of_agrees (hl : (l.assets.map Asset.name).Nodup) (ha : a ∈ l.images)
    (h : Agrees decode t a.name (decode a.data)) : Shows decode t l a.name (decode a.data) := by
  intro es hes
  obtain ⟨-, hready, hcount, -⟩ | ⟨-, hready⟩ := stands_play hes (stands_rebuild hl ha h)
  · exact ⟨fun x hx => by simp [hready] at hx, fun hle => by omega⟩
  · exact ⟨fun x hx => hready ▸ hx, fun _ => hready⟩

/-- If the oldest result that waits is another picture, a poll takes it; if a running job decodes
to another, it may be the first to end. -/
theorem agrees_of_shows (hl : (l.assets.map Asset.name).Nodup) (ha : a ∈ l.images)
    (h : Shows decode t l a.name (decode a.data)) : Agrees decode t a.name (decode a.data) := by
  have hpending : a.name ∈ (t.rebuild l).pending :=
    rebuild_eq (t := t) hl ▸ List.mem_map_of_mem ha
  have hready : (t.rebuild l).get? a.name = none := by
    rw [rebuild_eq hl]
    rfl
  have hresults : (t.rebuild l).results = t.results := by rw [rebuild_eq hl]
  have hcount := underWay_rebuild (t := t) hl ha
  cases hfirst : t.results.find? (·.1 == a.name) with
  | some r =>
    have hpoll := poll_of_find? hpending hready (hresults ▸ hfirst)
    rw [hcount] at hpoll
    have hshows := (h [.poll] (by simp [Event.isRebuild])).2
      (Nat.lt_succ_iff.mp hpoll.2)
    simpa only [Agrees, hfirst] using hpoll.1.symm.trans hshows
  | none =>
    simp only [Agrees, hfirst]
    intro job hjob hname
    obtain ⟨i, hi⟩ := List.getElem?_of_mem hjob
    have hi : (t.rebuild l).jobs[i]? = some job := by
      rw [rebuild_eq hl, List.getElem?_append_left (List.getElem?_eq_some_iff.mp hi).1, hi]
    have hfinish := @finish_of_getElem? τ decode _ i job hi
    have hfirst : ((t.rebuild l).finish decode i).results.find? (·.1 == a.name)
        = some (job.name, decode job.data) := by
      simp [hfinish, hresults, List.find?_append, hfirst, hname]
    have hpoll := poll_of_find? (t := (t.rebuild l).finish decode i)
      (by rw [hfinish]; exact hpending) (by rw [hfinish]; exact hready) hfirst
    rw [underWay_finish, hcount] at hpoll
    have hshows := (h [.finish i, .poll] (by simp [Event.isRebuild])).2
      (Nat.lt_succ_iff.mp hpoll.2)
    exact hpoll.1.symm.trans hshows

/-- **Whose picture a texture shows.**  Whatever happened before a rebuild and whatever happens
after it, a texture is the picture of its name in some library so far, and the library of the
last rebuild has a picture of that name.  In every order of the events that follow it is the
picture of that library and comes with the first result that is taken for the name, just when
what was under way for the name at the rebuild decodes to the same. -/
theorem textures_are_of_last_rebuild_iff (decode : ByteArray → Option τ) (past : List Event)
    (as : List Asset) :
    let l := Library.empty.insertAll as
    let before := play decode empty past
    (∀ later : List Event, (∀ e ∈ later, e.isRebuild = false) →
      ∀ name x, (play decode (before.rebuild l) later).get? name = some x →
        (∃ a ∈ l.images, a.name = name)
          ∧ ∃ bs a, (bs = as ∨ .rebuild bs ∈ past)
              ∧ (Library.empty.insertAll bs).find? name = some a
              ∧ a.kind = .image ∧ decode a.data = some x)
      ∧ ∀ name a, l.find? name = some a → a.kind = .image →
          (Shows decode before l name (decode a.data)
            ↔ Agrees decode before name (decode a.data)) := by
  intro l before
  have hl : (l.assets.map Asset.name).Nodup := Library.nodup_insertAll as
  refine ⟨fun later hlater name x hx => ⟨mem_images_of_get? hl hlater hx, ?_⟩, ?_⟩
  · have hwhole : (play decode empty (past ++ .rebuild as :: later)).get? name = some x := by
      rw [play, List.foldl_append]
      exact hx
    obtain ⟨bs, a, hbs, ha⟩ := get?_play_empty _ hwhole
    refine ⟨bs, a, ?_, ha⟩
    simp only [List.mem_append, List.mem_cons, Event.rebuild.injEq] at hbs
    obtain hpast | heq | hbs := hbs
    · exact .inr hpast
    · exact .inl heq
    · simpa [Event.isRebuild] using hlater _ hbs
  · intro name a hfind hkind
    obtain ⟨hmem, rfl⟩ := (Library.find?_eq_some_iff hl).mp hfind
    have ha : a ∈ l.images := List.mem_filter.mpr ⟨hmem, by simpa using hkind⟩
    exact ⟨agrees_of_shows hl ha, shows_of_agrees hl ha⟩

/-- A picture file of the name `ufo`. -/
def ufo (content : List UInt8) : Asset := ⟨"ufo", "image/png", ⟨content.toArray⟩⟩

/-- A rebuild for a broken file, one for a picture that comes in its place, and both results. -/
def brokenThenWhole : Textures Picture :=
  play Picture.ofBytes? empty
    [.rebuild [ufo [0]], .finish 0, .rebuild [ufo Picture.signature], .finish 0, .poll]

/-- A rebuild for a picture, one for a broken file in its place, and the result of the first. -/
def wholeThenBroken : Textures Picture :=
  play Picture.ofBytes? empty
    [.rebuild [ufo Picture.signature], .rebuild [ufo [0]], .finish 0, .poll]

/-- The result of a broken file that waits at a rebuild is taken for the picture that has come in
its place: everything has been delivered and polled, and the picture is not there.  A job that
runs at a rebuild puts a picture under the name of a file that is none. -/
theorem rebuild_takes_late_result :
    (brokenThenWhole.underWay "ufo" = 0
      ∧ (Picture.ofBytes? (ufo Picture.signature).data).isSome
      ∧ brokenThenWhole.get? "ufo" = none)
    ∧ (Picture.ofBytes? (ufo [0]).data).isNone ∧ (wholeThenBroken.get? "ufo").isSome := by
  decide +kernel

end Textures
end StageScript

import Mathlib.Logic.Function.Basic
import Mathlib.Data.List.Induction

/-- What a name in a folder stands for. -/
inductive Entry (ι α : Type) where
  | file (content : α)
  | folder (id : ι)

/-- What there is under a path. -/
inductive Node (α : Type) where
  | file (content : α)
  | folder
  deriving DecidableEq

def Entry.node {ι α : Type} : Entry ι α → Node α
  | .file content => .file content
  | .folder _ => .folder

/-- What every folder has under every name. -/
def Store (ι κ α : Type) := ι → κ → Option (Entry ι α)

namespace Store

variable {ι κ α : Type} {F : Store ι κ α} {root c d : ι} {k : κ} {ks path : List κ} {e : Option (Entry ι α)}

/-- The folder that a path leads to. -/
def walk (F : Store ι κ α) : ι → List κ → Option ι
  | c, [] => some c
  | c, k :: ks =>
    match F c k with
    | some (.folder d) => walk F d ks
    | _ => none

/-- What a path leads to. -/
def look (F : Store ι κ α) : ι → List κ → Option (Node α)
  | _, [] => some .folder
  | c, k :: ks =>
    match F c k with
    | some (.folder d) => look F d ks
    | some (.file content) => if ks.isEmpty then some (.file content) else none
    | none => none

/-- What the last name of a path stands for. The empty path has none. -/
def named (P : List κ → Option (Node α)) : List κ → Option (Node α)
  | [] => none
  | k :: ks => P (k :: ks)

theorem named_eq_some {P : List κ → Option (Node α)} {x : Node α} :
    named P path = some x ↔ path ≠ [] ∧ P path = some x := by
  cases path with
  | nil => simp [named]
  | cons k ks => simp [named]

theorem walk_folder (here : F c k = some (.folder d)) (ks : List κ) : F.walk c (k :: ks) = F.walk d ks := by
  rw [walk, here]

/-- A walk stays where folders are added. -/
theorem walk_mono {G : Store ι κ α} (more : ∀ c k d, F c k = some (.folder d) → G c k = some (.folder d))
    {ks : List κ} : ∀ {c : ι},
    F.walk c ks = some d → G.walk c ks = some d := by
  induction ks with
  | nil => exact fun walked => walked
  | cons k ks ih =>
    intro c walked
    rw [walk] at walked
    split at walked
    · rename_i b found
      rw [walk, more c k b found]
      exact ih walked
    · cases walked

theorem walk_append (ks ks' : List κ) : ∀ c, F.walk c (ks ++ ks') = (F.walk c ks).bind fun d => F.walk d ks' := by
  induction ks with
  | nil => exact fun c => rfl
  | cons k ks ih =>
    intro c
    rw [List.cons_append, walk, walk]
    rcases F c k with _ | content | d
    · rfl
    · rfl
    · exact ih d

theorem walk_snoc : F.walk c (ks ++ [k]) = some d ↔ ∃ b, F.walk c ks = some b ∧ F b k = some (.folder d) := by
  rw [walk_append, Option.bind_eq_some_iff]
  refine exists_congr fun b => and_congr_right fun _ => ?_
  rw [walk]
  rcases F b k with _ | content | d'
  · simp
  · simp
  · simp [walk]

/-- Behind a path to a folder the walk goes on. -/
theorem look_append (here : F.walk c ks = some d) (path : List κ) : F.look c (ks ++ path) = F.look d path := by
  induction ks generalizing c with
  | nil =>
    cases here
    rfl
  | cons k ks ih =>
    rw [walk] at here
    rw [List.cons_append, look]
    split at here
    · rename_i b found
      rw [found]
      exact ih here
    · cases here

theorem look_name (c : ι) (k : κ) : F.look c [k] = (F c k).map Entry.node := by
  rw [look]
  rcases F c k with _ | content | d
  · rfl
  · rfl
  · rfl

theorem look_snoc (here : F.walk c ks = some d) (k : κ) : F.look c (ks ++ [k]) = (F d k).map Entry.node := by
  rw [look_append here, look_name]

/-- There is nothing behind a path that leads to no folder. -/
theorem look_lost {ks : List κ} : ∀ {c : ι}, F.walk c ks = none → F.look c (ks ++ [k]) = none := by
  induction ks with
  | nil => intro c walked; cases walked
  | cons j ks ih =>
    intro c walked
    rw [walk] at walked
    rw [List.cons_append, look]
    rcases found : F c j with _ | content | d
    · rfl
    · exact if_neg (by simp)
    · rw [found] at walked
      exact ih walked

theorem look_eq_folder (path : List κ) : ∀ c, F.look c path = some .folder ↔ ∃ d, F.walk c path = some d := by
  induction path with
  | nil => exact fun c => ⟨fun _ => ⟨c, rfl⟩, fun _ => rfl⟩
  | cons k path ih =>
    intro c
    rw [look, walk]
    rcases F c k with _ | content | d
    · simp
    · simp
    · exact ih d

/-- Something other than the folder that the search starts at is found under the last name of the path. -/
theorem look_eq_some {x : Node α} : F.look c path = some x ↔ (path = [] ∧ x = .folder) ∨
    ∃ ks k d, path = ks ++ [k] ∧ F.walk c ks = some d ∧ (F d k).map Entry.node = some x := by
  rcases List.eq_nil_or_concat path with rfl | ⟨ks, k, rfl⟩
  · rw [look, Option.some_inj]
    refine ⟨fun same => .inl ⟨rfl, same.symm⟩, ?_⟩
    rintro (⟨_, rfl⟩ | ⟨ks, k, d, path, _⟩)
    · rfl
    · cases List.append_ne_nil_of_right_ne_nil ks (List.cons_ne_nil k []) path.symm
  · have some_ : ks ++ [k] ≠ [] := List.append_ne_nil_of_right_ne_nil ks (List.cons_ne_nil k [])
    rw [List.concat_eq_append]
    constructor
    · intro found
      rcases walked : F.walk c ks with _ | d
      · exact absurd found (by rw [look_lost walked]; simp)
      · exact .inr ⟨ks, k, d, rfl, walked, look_snoc walked k ▸ found⟩
    · rintro (⟨path, _⟩ | ⟨ks', k', d, path, walked, found⟩)
      · exact absurd path some_
      · obtain ⟨rfl, last⟩ := List.append_inj' path rfl
        obtain rfl := List.head_eq_of_cons_eq last
        rw [look_snoc walked, found]

/-- The folders form a tree: none has two names, and the root has none. -/
structure Rooted (F : Store ι κ α) (root : ι) : Prop where
  once : ∀ {c c' d k k'}, F c k = some (.folder d) → F c' k' = some (.folder d) → c = c' ∧ k = k'
  top : ∀ c k, F c k ≠ some (.folder root)

/-- Only one path leads to a folder. -/
theorem Rooted.walk_inj (rooted : F.Rooted root) {ks ks' : List κ} (here : F.walk root ks = some d)
    (there : F.walk root ks' = some d) : ks = ks' := by
  induction ks using List.reverseRecOn generalizing ks' d with
  | nil =>
    cases here
    induction ks' using List.reverseRecOn with
    | nil => rfl
    | append_singleton ks' k' =>
      obtain ⟨b, _, found⟩ := walk_snoc.mp there
      exact absurd found (rooted.top b k')
  | append_singleton ks k ih =>
    obtain ⟨b, before, found⟩ := walk_snoc.mp here
    induction ks' using List.reverseRecOn with
    | nil =>
      cases there
      exact absurd found (rooted.top b k)
    | append_singleton ks' k' =>
      obtain ⟨b', before', found'⟩ := walk_snoc.mp there
      obtain ⟨rfl, rfl⟩ := rooted.once found found'
      rw [ih before before']

/-- From a folder one comes to no folder that is not below it. -/
theorem Rooted.walk_below {c' : ι} {ks' : List κ} (rooted : F.Rooted root) (from_ : F.walk root ks = some c)
    (here : F c k = some (.folder d))
    (to_ : F.walk root ks' = some c') (outside : ¬ ks ++ [k] <+: ks') (js : List κ) : F.walk d js ≠ some c' := by
  intro there
  have below : F.walk root (ks ++ [k] ++ js) = some c' := by
    rw [walk_append, walk_snoc.mpr ⟨c, from_, here⟩]
    exact there
  exact outside (rooted.walk_inj below to_ ▸ List.prefix_append _ js)

/-- There is nothing in the folder. -/
def Hollow (F : Store ι κ α) (d : ι) : Prop := ∀ k, F d k = none

/-- A new entry for a name is a file, nothing, or an empty folder that has no name yet. -/
structure Fresh (F : Store ι κ α) (root c : ι) (e : Option (Entry ι α)) : Prop where
  hollow : ∀ d, e = some (.folder d) → F.Hollow d
  apart : ∀ d, e = some (.folder d) → d ≠ c ∧ d ≠ root
  unnamed : ∀ d, e = some (.folder d) → ∀ c k, F c k ≠ some (.folder d)

theorem fresh_file (F : Store ι κ α) (root c : ι) (content : α) : F.Fresh root c (some (.file content)) := by
  constructor <;> exact fun d same => by cases same

theorem fresh_none (F : Store ι κ α) (root c : ι) : F.Fresh root c none := by
  constructor <;> exact fun d same => by cases same

variable [DecidableEq ι] [DecidableEq κ]

/-- The store with another entry, or none, under a name of a folder. -/
def put (F : Store ι κ α) (c : ι) (k : κ) (e : Option (Entry ι α)) : Store ι κ α :=
  fun c' k' => if c' = c ∧ k' = k then e else F c' k'

theorem put_self (F : Store ι κ α) (c : ι) (k : κ) (e : Option (Entry ι α)) : F.put c k e c k = e := if_pos ⟨rfl, rfl⟩

theorem put_ne {c' : ι} {k' : κ} (other : ¬ (c' = c ∧ k' = k)) : F.put c k e c' k' = F c' k' := if_neg other

theorem Rooted.put (rooted : F.Rooted root) (fresh : F.Fresh root c e) : (F.put c k e).Rooted root where
  once {b b' d j j'} here there := by
    by_cases first : b = c ∧ j = k
    · obtain ⟨rfl, rfl⟩ := first
      rw [put_self] at here
      by_cases second : b' = b ∧ j' = j
      · exact ⟨second.1.symm, second.2.symm⟩
      · rw [put_ne second] at there
        exact absurd there (fresh.unnamed d here b' j')
    · rw [put_ne first] at here
      by_cases second : b' = c ∧ j' = k
      · obtain ⟨rfl, rfl⟩ := second
        rw [put_self] at there
        exact absurd here (fresh.unnamed d there b j)
      · rw [put_ne second] at there
        exact rooted.once here there
  top b j here := by
    by_cases first : b = c ∧ j = k
    · obtain ⟨rfl, rfl⟩ := first
      rw [put_self] at here
      exact (fresh.apart root here).2 rfl
    · rw [put_ne first] at here
      exact rooted.top b j here

section Put

variable (rooted : F.Rooted root) (at_ : F.walk root ks = some c)

include rooted at_

/-- Where the name is not on the way, a path leads to the same folder as before. -/
theorem walk_put_outside (path : List κ) :
    ¬ ks ++ [k] <+: path → (F.put c k e).walk root path = F.walk root path := by
  induction path using List.reverseRecOn with
  | nil => exact fun _ => rfl
  | append_singleton js j ih =>
    intro outside
    have before := ih fun on => outside (on.trans (List.prefix_append js [j]))
    rw [walk_append, walk_append, before]
    refine Option.bind_congr fun b here => ?_
    have other : ¬ (b = c ∧ j = k) := by
      rintro ⟨rfl, rfl⟩
      obtain rfl := rooted.walk_inj here at_
      exact outside List.prefix_rfl
    rw [walk, walk, put_ne other]
    rfl

/-- The way to a folder stays when an entry is put into it. -/
theorem walk_put : (F.put c k e).walk root ks = some c :=
  (walk_put_outside rooted at_ ks fun on => absurd on.length_le (by simp)).trans at_

theorem look_put_outside {path : List κ} (outside : ¬ ks ++ [k] <+: path) :
    (F.put c k e).look root path = F.look root path := by
  rcases List.eq_nil_or_concat path with rfl | ⟨js, j, rfl⟩
  · rfl
  · rw [List.concat_eq_append] at outside ⊢
    have before := walk_put_outside (e := e) rooted at_ js fun on => outside (on.trans (List.prefix_append js [j]))
    rcases walked : F.walk root js with _ | b
    · rw [look_lost walked, look_lost (before.trans walked)]
    · have other : ¬ (b = c ∧ j = k) := by
        rintro ⟨rfl, rfl⟩
        obtain rfl := rooted.walk_inj walked at_
        exact outside List.prefix_rfl
      rw [look_snoc walked, look_snoc (before.trans walked), put_ne other]

theorem look_put_below (path : List κ) : (F.put c k e).look root (ks ++ [k] ++ path) = match e with
    | some (.folder d) => (F.put c k e).look d path
    | some (.file content) => if path.isEmpty then some (.file content) else none
    | none => none := by
  rw [List.append_assoc, look_append (walk_put rooted at_), List.singleton_append, look, put_self]

/-- Putting an entry under a name changes what the path with that name leads
to, and nothing else. -/
theorem look_put (fresh : F.Fresh root c e) (old : ∀ d, F c k = some (.folder d) → F.Hollow d) :
    (F.put c k e).look root = Function.update (F.look root) (ks ++ [k]) (e.map Entry.node) := by
  funext path
  rw [Function.update_apply]
  by_cases below : ks ++ [k] <+: path
  · obtain ⟨rest, rfl⟩ := below
    rw [look_put_below rooted at_]
    rcases rest with _ | ⟨j, rest⟩
    · rw [if_pos (List.append_nil _)]
      rcases e with _ | content | d
      · rfl
      · rfl
      · rfl
    · have nothing : F.look root (ks ++ [k] ++ j :: rest) = none := by
        rw [List.append_assoc, look_append at_, List.singleton_append, look]
        rcases found : F c k with _ | content | d
        · rfl
        · rfl
        · dsimp only
          rw [look, old d found j]
      rw [if_neg (by simp), nothing]
      rcases new : e with _ | content | d
      · rfl
      · rfl
      · dsimp only
        rw [look, ← new, put_ne fun same => (fresh.apart d new).1 same.1, fresh.hollow d new j]
  · rw [look_put_outside rooted at_ below, if_neg]
    rintro rfl
    exact below List.prefix_rfl

/-- Only the folder itself is lost with the name of an empty folder. -/
theorem walk_drop {b : ι} (here : F c k = some (.folder d)) (hollow : F.Hollow d) (other : b ≠ d) {path : List κ}
    (walked : F.walk root path = some b) : (F.put c k none).walk root path = some b := by
  refine (walk_put_outside rooted at_ path ?_).trans walked
  rintro ⟨rest, rfl⟩
  rw [walk_append, walk_snoc.mpr ⟨c, at_, here⟩, Option.bind_some] at walked
  cases rest with
  | nil =>
    cases walked
    exact other rfl
  | cons j rest =>
    rw [walk, hollow] at walked
    cases walked

/-- Without its name there is nothing left of what was below it. -/
theorem look_cut (path : List κ) :
    (F.put c k none).look root path = if ks ++ [k] <+: path then none else F.look root path := by
  split
  · rename_i below
    obtain ⟨rest, rfl⟩ := below
    exact look_put_below rooted at_ rest
  · rename_i outside
    exact look_put_outside rooted at_ outside

end Put

/-- From a folder that has no way to the one that is changed everything is as before. -/
theorem walk_put_apart (path : List κ) :
    ∀ {d : ι}, (∀ js, F.walk d js ≠ some c) → (F.put c k e).walk d path = F.walk d path := by
  induction path with
  | nil => exact fun _ => rfl
  | cons j path ih =>
    intro d apart
    have other : ¬ (d = c ∧ j = k) := fun same => apart [] (congrArg some same.1)
    rw [walk, walk, put_ne other]
    rcases found : F d j with _ | content | b
    · rfl
    · rfl
    · exact ih fun js => walk_folder found js ▸ apart (j :: js)

theorem look_put_apart (apart : ∀ js, F.walk d js ≠ some c) (path : List κ) :
    (F.put c k e).look d path = F.look d path := by
  rcases List.eq_nil_or_concat path with rfl | ⟨js, j, rfl⟩
  · rfl
  · rw [List.concat_eq_append]
    have before := walk_put_apart (k := k) (e := e) js apart
    rcases walked : F.walk d js with _ | b
    · rw [look_lost walked, look_lost (before.trans walked)]
    · have other : ¬ (b = c ∧ j = k) := fun same => apart js (same.1 ▸ walked)
      rw [look_snoc walked, look_snoc (before.trans walked), put_ne other]

/-- Moving an entry to a name that is not below it moves all that is below it, too. -/
theorem look_move {ks' : List κ} {c' : ι} {k' : κ} {x : Entry ι α} (rooted : F.Rooted root)
    (from_ : F.walk root ks = some c)
    (to_ : F.walk root ks' = some c') (here : F c k = some x) (outside : ¬ ks ++ [k] <+: ks') (path : List κ) :
    ((F.put c k none).put c' k' (some x)).look root path =
      if ks' ++ [k'] <+: path then F.look root (ks ++ [k] ++ path.drop (ks'.length + 1))
      else if ks ++ [k] <+: path then none else F.look root path := by
  have rooted' : (F.put c k none).Rooted root := rooted.put (F.fresh_none root c)
  have to' : (F.put c k none).walk root ks' = some c' := (walk_put_outside rooted from_ ks' outside).trans to_
  split
  · rename_i below
    obtain ⟨rest, rfl⟩ := below
    have dropped : (ks' ++ [k'] ++ rest).drop (ks'.length + 1) = rest := List.drop_left' (by simp)
    rw [look_put_below rooted' to', dropped, List.append_assoc, look_append from_, List.singleton_append, look, here]
    rcases x with content | d
    · rfl
    · have apart := rooted.walk_below from_ here from_ fun on => absurd on.length_le (by simp)
      have apart' js : (F.put c k none).walk d js ≠ some c' :=
        walk_put_apart (e := none) js apart ▸ rooted.walk_below from_ here to_ outside js
      dsimp only
      rw [look_put_apart apart', look_put_apart apart]
  · rename_i beside
    rw [look_put_outside rooted' to' beside]
    exact look_cut rooted from_ path

/-- A folder that is moved or that is below what is moved is reached by another path. -/
theorem walk_move {b c' : ι} {k' : κ} {ks' : List κ} {x : Entry ι α} (rooted : F.Rooted root)
    (from_ : F.walk root ks = some c)
    (to_ : F.walk root ks' = some c') (here : F c k = some x) (outside : ¬ ks ++ [k] <+: ks')
    (absent : F c' k' = none) {path : List κ}
    (walked : F.walk root path = some b) :
    ∃ path', ((F.put c k none).put c' k' (some x)).walk root path' = some b := by
  have rooted' : (F.put c k none).Rooted root := rooted.put (F.fresh_none root c)
  have to' : (F.put c k none).walk root ks' = some c' := (walk_put_outside rooted from_ ks' outside).trans to_
  by_cases below : ks ++ [k] <+: path
  · obtain ⟨rest, rfl⟩ := below
    have start : ∃ d, x = .folder d ∧ F.walk d rest = some b := by
      rw [walk_append, Option.bind_eq_some_iff] at walked
      obtain ⟨d, first, walked⟩ := walked
      obtain ⟨c'', before, found⟩ := walk_snoc.mp first
      cases from_.symm.trans before
      exact ⟨d, Option.some.inj (here.symm.trans found), walked⟩
    obtain ⟨d, rfl, walked⟩ := start
    have apart := rooted.walk_below from_ here from_ fun on => absurd on.length_le (by simp)
    have apart' js : (F.put c k none).walk d js ≠ some c' :=
      walk_put_apart (e := none) js apart ▸ rooted.walk_below from_ here to_ outside js
    refine ⟨ks' ++ [k'] ++ rest, ?_⟩
    rw [walk_append, walk_snoc.mpr ⟨c', walk_put rooted' to', put_self ..⟩, Option.bind_some,
      walk_put_apart rest apart',
      walk_put_apart rest apart, walked]
  · refine ⟨path, ?_⟩
    have kept := (walk_put_outside (e := none) rooted from_ path below).trans walked
    refine walk_mono (fun d j e found => ?_) kept
    rw [put_ne]
    · exact found
    · rintro ⟨rfl, rfl⟩
      rw [put] at found
      split at found
      · cases found
      · cases absent.symm.trans found

/-- The map with folders all the way down to `full`. -/
def furnished (P : List κ → Option (Node α)) (full : List κ) : List κ → Option (Node α) :=
  fun path => if path <+: full then some .folder else P path

omit [DecidableEq ι] in
theorem furnished_walked (walked : F.walk root ks = some d) : furnished (F.look root) ks = F.look root := by
  funext path
  rw [furnished]
  split
  · rename_i before
    obtain ⟨rest, rfl⟩ := before
    rw [walk_append, Option.bind_eq_some_iff] at walked
    obtain ⟨b, walked, _⟩ := walked
    exact ((look_eq_folder path root).mpr ⟨b, walked⟩).symm
  · rfl

theorem furnished_update (P : List κ → Option (Node α)) (ks rest : List κ) :
    furnished (Function.update P ks (some .folder)) (ks ++ rest) = furnished P (ks ++ rest) := by
  funext path
  rw [furnished, furnished]
  split
  · rfl
  · rename_i outside
    refine Function.update_of_ne ?_ ..
    rintro rfl
    exact outside (List.prefix_append ..)

/-- The map with what there is under `source` moved to `target`. -/
def relocated (P : List κ → Option (Node α)) (source target : List κ) : List κ → Option (Node α) := fun path =>
  if target <+: path then P (source ++ path.drop target.length) else if source <+: path then none else P path

end Store

/-
# The assets of a folder

A folder is loaded in the order of its file names, and a library holds one asset for a stem.  So of
all recognized files with one stem the last one stays, and what a library is behind the loading is
told without its places: under every stem it has the asset of the latest file (`Library.Indexes`).

**What is lost.**  A picture and a sound with one stem do not both stay, although a script could
tell them apart by the endings of their uses.  A file can be used just if no later one has its stem,
and the count of the files is the number of assets just if no two of them share a stem
(`loaded_files_are_usable_unless_replaced`).
-/
import Mathlib.Data.List.Dedup
import Mathlib.Data.List.Induction
import StageScript.Proofs.Canvas.Textures
import StageScript.Scene

namespace StageScript

/-! ## 1. Insertions -/

namespace Library

variable {l : Library} {a b : Asset} {files : List (String × ByteArray)} {n m stem : String}

/-- The asset that was put last under a name is found. -/
theorem find?_insert (l : Library) (a : Asset) (stem : String) :
    (l.insert a).find? stem = if a.name = stem then some a else l.find? stem := by
  have hplace (b : Asset) :
      ((if b.name == a.name then a else b).name == stem) = (b.name == stem) := by
    by_cases hb : b.name = a.name <;> simp [hb]
  unfold insert
  split
  · rename_i hknown
    simp only [find?, List.find?_map, Function.comp_def, hplace]
    by_cases hstem : a.name = stem
    · subst hstem
      obtain ⟨b, hb⟩ := Option.isSome_iff_exists.mp (List.isSome_find?.trans hknown)
      have hname : b.name = a.name := by simpa using List.find?_some hb
      simp [hb, hname]
    · rw [if_neg hstem]
      cases hfind : l.assets.find? (·.name == stem) with
      | none => rfl
      | some b =>
        have hname : b.name = stem := by simpa using List.find?_some hfind
        simp [hname, Ne.symm hstem]
  · rename_i hnew
    rw [find?, find?, List.find?_append]
    by_cases hstem : a.name = stem
    · subst hstem
      have hnone : l.assets.find? (·.name == a.name) = none := by
        rw [← Option.not_isSome_iff_eq_none, List.isSome_find?]
        exact hnew
      simp [hnone]
    · simp [hstem]

theorem insertAll_concat (l : Library) (as : List Asset) (a : Asset) :
    l.insertAll (as ++ [a]) = (l.insertAll as).insert a := by
  simp [insertAll]

theorem mem_names_insert {name : String} : name ∈ (l.insert a).assets.map Asset.name
    ↔ name = a.name ∨ name ∈ l.assets.map Asset.name := by
  rw [← any_name_iff, ← any_name_iff, ← List.isSome_find?, ← List.isSome_find?]
  change ((l.insert a).find? name).isSome = true ↔ name = a.name ∨ (l.find? name).isSome = true
  rw [find?_insert]
  by_cases hname : a.name = name
  · simp [hname]
  · simp [hname, Ne.symm hname]

/-- The names of a library are those of the assets that were put there. -/
theorem mem_names_insertAll (as : List Asset) (name : String) :
    name ∈ (empty.insertAll as).assets.map Asset.name ↔ name ∈ as.map Asset.name := by
  induction as using List.reverseRecOn with
  | nil => rfl
  | append_singleton as a ih =>
    rw [insertAll_concat, mem_names_insert, ih]
    simp [or_comm, eq_comm]

/-- One asset stays for a name. -/
theorem length_insertAll (as : List Asset) :
    (empty.insertAll as).assets.length = (as.map Asset.name).dedup.length := by
  have hperm : ((empty.insertAll as).assets.map Asset.name).Perm (as.map Asset.name).dedup := by
    rw [List.perm_ext_iff_of_nodup (nodup_insertAll as) (List.nodup_dedup _)]
    intro name
    rw [mem_names_insertAll, List.mem_dedup]
  simpa using hperm.length_eq

/-! ## 2. Files -/

/-- The file of the name is recognized as the asset. -/
def Recognized (files : List (String × ByteArray)) (n : String) (a : Asset) : Prop :=
  ∃ data, (n, data) ∈ files ∧ Asset.ofFile? n data = some a

/-- The file of the name is recognized as the asset, and no later one has its stem. -/
structure Latest (files : List (String × ByteArray)) (n : String) (a : Asset) : Prop where
  recognized : Recognized files n a
  last : ∀ m b, Recognized files m b → b.name = a.name → m ≤ n

/-- Under every stem the library has the asset of the latest file. -/
structure Indexes (files : List (String × ByteArray)) (l : Library) : Prop where
  found : ∀ stem a, l.find? stem = some a → a.name = stem ∧ ∃ n, Latest files n a
  absent : ∀ stem, l.find? stem = none → ∀ n a, Recognized files n a → a.name ≠ stem

/-- The asset of a file. -/
def asset? (f : String × ByteArray) : Option Asset := Asset.ofFile? f.1 f.2

theorem recognized_concat {f : String × ByteArray} :
    Recognized (files ++ [f]) n a ↔ Recognized files n a ∨ (n = f.1 ∧ asset? f = some a) := by
  obtain ⟨name, data⟩ := f
  simp only [Recognized, asset?, List.mem_append, List.mem_singleton, Prod.mk.injEq]
  constructor
  · rintro ⟨data', hmem | ⟨rfl, rfl⟩, ha⟩
    · exact .inl ⟨data', hmem, ha⟩
    · exact .inr ⟨rfl, ha⟩
  · rintro (⟨data', hmem, ha⟩ | ⟨rfl, ha⟩)
    · exact ⟨data', .inl hmem, ha⟩
    · exact ⟨data, .inr ⟨rfl, rfl⟩, ha⟩

section Concat

variable {f : String × ByteArray}

/-- A file stays the latest one, if the next file has another stem. -/
theorem Latest.concat (h : Latest files n a) (hf : ¬ ∃ b, asset? f = some b ∧ b.name = a.name) :
    Latest (files ++ [f]) n a := by
  constructor
  · exact recognized_concat.mpr (.inl h.recognized)
  · intro m b hb hname
    rcases recognized_concat.mp hb with hb | ⟨-, hb⟩
    · exact h.last m b hb hname
    · exact absurd ⟨b, hb, hname⟩ hf

/-- The last file is the latest one of its stem. -/
theorem latest_of_concat (hlast : ∀ g ∈ files, g.1 ≤ f.1) (ha : asset? f = some a) :
    Latest (files ++ [f]) f.1 a := by
  constructor
  · exact recognized_concat.mpr (.inr ⟨rfl, ha⟩)
  · intro m b hb _
    rcases recognized_concat.mp hb with ⟨data, hmem, -⟩ | ⟨rfl, -⟩
    · exact hlast _ hmem
    · exact String.le_refl _

theorem find?_insert_asset (hf : asset? f = some a) :
    (l.insertAll (asset? f).toList).find? a.name = some a := by
  rw [hf]
  exact (find?_insert l a a.name).trans (if_pos rfl)

theorem find?_insert_other (hf : ¬ ∃ b, asset? f = some b ∧ b.name = stem) :
    (l.insertAll (asset? f).toList).find? stem = l.find? stem := by
  cases hasset : asset? f with
  | none => rfl
  | some b =>
    have hname : b.name ≠ stem := fun hb => hf ⟨b, hasset, hb⟩
    exact (find?_insert l b stem).trans (if_neg hname)

/-- One more file that no other one comes behind. -/
theorem Indexes.concat (h : Indexes files l) (hlast : ∀ g ∈ files, g.1 ≤ f.1) :
    Indexes (files ++ [f]) (l.insertAll (asset? f).toList) := by
  constructor
  · intro stem a ha
    by_cases hf : ∃ b, asset? f = some b ∧ b.name = stem
    · obtain ⟨b, hasset, rfl⟩ := hf
      rw [find?_insert_asset hasset] at ha
      obtain rfl := Option.some.inj ha
      exact ⟨rfl, f.1, latest_of_concat hlast hasset⟩
    · rw [find?_insert_other hf] at ha
      obtain ⟨rfl, n, hn⟩ := h.found stem a ha
      exact ⟨rfl, n, hn.concat hf⟩
  · intro stem hnone n a ha
    have hf : ¬ ∃ b, asset? f = some b ∧ b.name = stem := by
      rintro ⟨b, hasset, rfl⟩
      rw [find?_insert_asset hasset] at hnone
      simp at hnone
    rw [find?_insert_other hf] at hnone
    rcases recognized_concat.mp ha with ha | ⟨-, ha⟩
    · exact h.absent stem hnone n a ha
    · intro hname
      exact hf ⟨a, ha, hname⟩

end Concat

/-- Files that are put in the order of their names. -/
theorem indexes_insertAll (h : files.Pairwise fun f g => f.1 ≤ g.1) :
    Indexes files (empty.insertAll (files.filterMap asset?)) := by
  induction files using List.reverseRecOn with
  | nil =>
    constructor
    · intro stem a ha
      simp [find?, insertAll, empty] at ha
    · rintro stem - n a ⟨data, hmem, -⟩
      simp at hmem
  | append_singleton fs f ih =>
    obtain ⟨hfs, -, hlast⟩ := List.pairwise_append.mp h
    have hsplit : empty.insertAll ((fs ++ [f]).filterMap asset?)
        = (empty.insertAll (fs.filterMap asset?)).insertAll (asset? f).toList := by
      rw [List.filterMap_append, insertAll, List.foldl_append]
      cases hasset : asset? f <;> simp [insertAll, hasset]
    rw [hsplit]
    exact (ih hfs).concat fun g hg => hlast g hg f List.mem_cons_self

/-- The files in the order of their names. -/
theorem pairwise_sorted (files : List (String × ByteArray)) :
    (files.mergeSort fun f g => f.1 ≤ g.1).Pairwise fun f g => f.1 ≤ g.1 := by
  have hsorted : (files.mergeSort fun f g => f.1 ≤ g.1).Pairwise
      fun f g => decide (f.1 ≤ g.1) = true := by
    refine List.pairwise_mergeSort ?_ ?_ files
    · intro f g h hfg hgh
      rw [decide_eq_true_eq] at hfg hgh ⊢
      exact String.le_trans hfg hgh
    · intro f g
      simpa using String.le_total f.1 g.1
  simpa using hsorted

/-- **A folder is loaded so that the latest file of each stem stays.** -/
theorem indexes_load (files : List (String × ByteArray)) : Indexes files (empty.load files).1 := by
  have hsame (n : String) (a : Asset) :
      Recognized (files.mergeSort fun f g => f.1 ≤ g.1) n a ↔ Recognized files n a := by
    simp only [Recognized, List.mem_mergeSort]
  have hsorted := indexes_insertAll (pairwise_sorted files)
  constructor
  · intro stem a ha
    obtain ⟨hname, n, hn⟩ := hsorted.found stem a ha
    refine ⟨hname, n, (hsame n a).mp hn.recognized, ?_⟩
    intro m b hb
    exact hn.last m b ((hsame m b).mpr hb)
  · intro stem hnone n a ha
    exact hsorted.absent stem hnone n a ((hsame n a).mpr ha)

/-- Recognized files with one stem are of different kinds. -/
def KindsDiffer (files : List (String × ByteArray)) : Prop :=
  ∀ n m a b, Recognized files n a → Recognized files m b → a.name = b.name → a.kind = b.kind →
    n = m

/-- An asset is found under its stem just if its file is the latest one. -/
theorem find?_load_iff (hkinds : KindsDiffer files) (h : Recognized files n a)
    (hnames : (files.map Prod.fst).Nodup) :
    (empty.load files).1.find? a.name = some a ↔ Latest files n a := by
  constructor
  · intro hfind
    obtain ⟨-, m, hm⟩ := (indexes_load files).found _ _ hfind
    obtain rfl := hkinds n m a a h hm.recognized rfl rfl
    exact hm
  · intro hlatest
    cases hfind : (empty.load files).1.find? a.name with
    | none => exact absurd rfl ((indexes_load files).absent _ hfind n a h)
    | some b =>
      obtain ⟨hname, m, hm⟩ := (indexes_load files).found _ _ hfind
      -- both are the latest, so they are one file
      obtain rfl : n = m := String.le_antisymm (hm.last n a h hname.symm)
        (hlatest.last m b hm.recognized hname)
      obtain ⟨data, hmem, ha⟩ := h
      obtain ⟨data', hmem', hb⟩ := hm.recognized
      obtain rfl : data = data' :=
        congrArg Prod.snd (List.inj_on_of_nodup_map hnames hmem hmem' rfl)
      rw [← ha, ← hb]

/-- The files that are used are counted. -/
theorem load_snd (files : List (String × ByteArray)) :
    (empty.load files).2 = files.countP fun f => (asset? f).isSome := by
  have hperm := (List.mergeSort_perm files fun f g => f.1 ≤ g.1).filterMap asset?
  rw [← List.length_filterMap_eq_countP, ← hperm.length_eq]
  rfl

/-- The count is the number of assets just if the stems are different. -/
theorem load_snd_eq_length_iff (files : List (String × ByteArray)) :
    (empty.load files).2 = (empty.load files).1.assets.length
      ↔ ((files.filterMap asset?).map Asset.name).Nodup := by
  have hperm : ((assetsOfFiles files).map Asset.name).Perm
      ((files.filterMap asset?).map Asset.name) :=
    ((List.mergeSort_perm files fun f g => f.1 ≤ g.1).filterMap asset?).map Asset.name
  have hfound : (empty.load files).2 = ((assetsOfFiles files).map Asset.name).length := by
    rw [List.length_map]
    rfl
  have hlength : (empty.load files).1.assets.length
      = ((assetsOfFiles files).map Asset.name).dedup.length := length_insertAll _
  rw [← hperm.nodup_iff, hfound, hlength]
  constructor
  · intro heq
    have hdedup := (List.dedup_sublist ((assetsOfFiles files).map Asset.name)).eq_of_length heq.symm
    exact List.dedup_eq_self.mp hdedup
  · intro hnodup
    rw [List.dedup_eq_self.mpr hnodup]

end Library

/-! ## 3. Uses -/

namespace Asset

theorem kind_of_mimeOfExtension? {ext mime : String} (h : mimeOfExtension? ext = some mime) :
    Kind.ofMime mime = .image ∨ Kind.ofMime mime = .audio := by
  unfold mimeOfExtension? at h
  split at h <;> simp only [Option.some.injEq, reduceCtorEq] at h
  all_goals
    subst h
    decide

/-- A file that is recognized is a picture or a sound. -/
theorem exists_use {name : String} {data : ByteArray} {a : Asset} (h : ofFile? name data = some a) :
    ∃ use : AssetUse, use.kind = a.kind := by
  unfold ofFile? at h
  split at h
  · obtain ⟨mime, hmime, rfl⟩ := Option.map_eq_some_iff.mp h
    rcases kind_of_mimeOfExtension? hmime with hkind | hkind
    · exact ⟨.picture, hkind.symm⟩
    · exact ⟨.sound, hkind.symm⟩
  · simp at h

end Asset

namespace Scene

/-- The stem of a path with the ending of its use. -/
theorem assetBase_append (use : AssetUse) {stem : List Char}
    (hfolder : "assets/".toList.isPrefixOf stem = false) :
    assetBase use (stem ++ use.suffix.toList) = (stem, true) := by
  have hsuffix : use.suffix.toList.isSuffixOf (stem ++ use.suffix.toList) = true :=
    List.isSuffixOf_iff_suffix.mpr (List.suffix_append _ _)
  simp only [assetBase, hsuffix, if_true, List.length_append, Nat.add_sub_cancel,
    List.take_left', hfolder]
  rfl

/-- A stem with the ending of a use means the asset of the stem, if it serves the use. -/
theorem findAsset_append {s : Scene} {use : AssetUse} {stem : String} {a : Asset}
    (hfolder : "assets/".toList.isPrefixOf stem.toList = false) :
    s.findAsset use (stem ++ use.suffix) = .ok a
      ↔ s.assets.find? stem = some a ∧ a.kind = use.kind := by
  rw [findAsset, String.toList_append, assetBase_append use hfolder]
  simp only [String.ofList_toList, if_true]
  cases s.assets.find? stem with
  | none => simp
  | some b =>
    simp only [Option.some.injEq]
    split
    · rename_i hkind
      simp only [Except.ok.injEq]
      constructor
      · rintro rfl
        exact ⟨rfl, hkind⟩
      · exact And.left
    · rename_i hkind
      simp only [reduceCtorEq, false_iff, not_and]
      rintro rfl
      exact hkind

open Library (Recognized KindsDiffer)

/-- **A loaded file can be used unless a later one has its stem.**  Load a folder in which no two
pictures and no two sounds share a stem.  As many files are counted as are recognized, and as many
assets are in the library just if no two recognized files share a stem.  Each of them is a picture
or a sound, and its stem with the ending of that use means it, just if no recognized file with its
stem comes behind it in the order of the names.  One that does is of the other kind, and it takes
the place of the file. -/
theorem loaded_files_are_usable_unless_replaced {files : List (String × ByteArray)} {s : Scene}
    (hnames : (files.map Prod.fst).Nodup) (hkinds : KindsDiffer files)
    (hassets : s.assets = (Library.empty.load files).1) :
    (Library.empty.load files).2 = files.countP (fun f => (Library.asset? f).isSome)
      ∧ ((Library.empty.load files).2 = s.assets.assets.length
        ↔ ((files.filterMap Library.asset?).map Asset.name).Nodup)
      ∧ ∀ n a, Recognized files n a → "assets/".toList.isPrefixOf a.name.toList = false →
          ∃ use : AssetUse, use.kind = a.kind
            ∧ (s.findAsset use (a.name ++ use.suffix) = .ok a
              ↔ ∀ m b, Recognized files m b → b.name = a.name → m ≤ n) := by
  refine ⟨Library.load_snd files, ?_, fun n a h hfolder => ?_⟩
  · rw [hassets]
    exact Library.load_snd_eq_length_iff files
  · obtain ⟨use, huse⟩ : ∃ use : AssetUse, use.kind = a.kind := by
      obtain ⟨data, -, ha⟩ := h
      exact Asset.exists_use ha
    refine ⟨use, huse, ?_⟩
    rw [findAsset_append hfolder, hassets, Library.find?_load_iff hkinds h hnames]
    constructor
    · rintro ⟨hlatest, -⟩
      exact hlatest.last
    · intro hlast
      exact ⟨⟨h, hlast⟩, huse.symm⟩

/-- A picture and a sound of one stem. -/
def ufoFiles : List (String × ByteArray) := [("ufo.png", ⟨#[0]⟩), ("ufo.wav", ⟨#[1]⟩)]

theorem recognized_ufoFiles {n : String} {a : Asset} : Recognized ufoFiles n a
    ↔ (n = "ufo.png" ∧ a = ⟨"ufo", "image/png", ⟨#[0]⟩⟩)
      ∨ (n = "ufo.wav" ∧ a = ⟨"ufo", "audio/wav", ⟨#[1]⟩⟩) := by
  have hpng : Asset.ofFile? "ufo.png" ⟨#[0]⟩ = some ⟨"ufo", "image/png", ⟨#[0]⟩⟩ := by rfl
  have hwav : Asset.ofFile? "ufo.wav" ⟨#[1]⟩ = some ⟨"ufo", "audio/wav", ⟨#[1]⟩⟩ := by rfl
  simp only [Recognized, ufoFiles, List.mem_cons, List.not_mem_nil, or_false, Prod.mk.injEq]
  constructor
  · rintro ⟨data, ⟨rfl, rfl⟩ | ⟨rfl, rfl⟩, ha⟩
    · exact .inl ⟨rfl, Option.some.inj (ha.symm.trans hpng)⟩
    · exact .inr ⟨rfl, Option.some.inj (ha.symm.trans hwav)⟩
  · rintro (⟨rfl, rfl⟩ | ⟨rfl, rfl⟩)
    · exact ⟨_, .inl ⟨rfl, rfl⟩, hpng⟩
    · exact ⟨_, .inr ⟨rfl, rfl⟩, hwav⟩

theorem kindsDiffer_ufoFiles : KindsDiffer ufoFiles := by
  intro n m a b ha hb _ hkind
  rcases recognized_ufoFiles.mp ha with ⟨rfl, rfl⟩ | ⟨rfl, rfl⟩
    <;> rcases recognized_ufoFiles.mp hb with ⟨rfl, rfl⟩ | ⟨rfl, rfl⟩
  · rfl
  · exact absurd hkind (by decide)
  · exact absurd hkind (by decide)
  · rfl

theorem loaded_files_are_usable_unless_replaced_ufoFiles :
    let s := { Scene.initial (.seeded 0) (.ofSeed 0) with
      assets := (Library.empty.load ufoFiles).1 }
    (Library.empty.load ufoFiles).2 = 2
      ∧ ∃ use : AssetUse, use.kind = .audio
        ∧ s.findAsset use ("ufo" ++ use.suffix) = .ok ⟨"ufo", "audio/wav", ⟨#[1]⟩⟩ := by
  intro s
  have hsound : Recognized ufoFiles "ufo.wav" ⟨"ufo", "audio/wav", ⟨#[1]⟩⟩ :=
    recognized_ufoFiles.mpr (.inr ⟨rfl, rfl⟩)
  obtain ⟨hcount, -, huses⟩ := loaded_files_are_usable_unless_replaced (s := s)
    (by decide) kindsDiffer_ufoFiles rfl
  obtain ⟨use, huse, hfind⟩ := huses _ _ hsound (by decide)
  refine ⟨hcount.trans (by decide), use, huse, hfind.mpr fun m b hb _ => ?_⟩
  rcases recognized_ufoFiles.mp hb with ⟨rfl, -⟩ | ⟨rfl, -⟩
  · decide
  · exact String.le_refl _

/-- **A picture is lost beside a sound**: both files are counted, one asset is in the library, and
the picture is not found. -/
theorem sound_replaces_picture :
    let picture : Asset := ⟨"ufo", "image/png", ⟨#[0]⟩⟩
    let s := { Scene.initial (.seeded 0) (.ofSeed 0) with
      assets := (Library.empty.load ufoFiles).1 }
    (ufoFiles.map Prod.fst).Nodup ∧ KindsDiffer ufoFiles ∧ Recognized ufoFiles "ufo.png" picture
      ∧ s.findAsset .picture "ufo.image" ≠ .ok picture
      ∧ (Library.empty.load ufoFiles).2 ≠ s.assets.assets.length := by
  intro picture s
  have hpicture : Recognized ufoFiles "ufo.png" picture :=
    recognized_ufoFiles.mpr (.inl ⟨rfl, rfl⟩)
  have hsound : Recognized ufoFiles "ufo.wav" ⟨"ufo", "audio/wav", ⟨#[1]⟩⟩ :=
    recognized_ufoFiles.mpr (.inr ⟨rfl, rfl⟩)
  have hnames : (ufoFiles.map Prod.fst).Nodup := by decide
  refine ⟨hnames, kindsDiffer_ufoFiles, hpicture, ?_, ?_⟩
  · have hfolder : "assets/".toList.isPrefixOf "ufo".toList = false := by decide
    have hpath : "ufo.image" = "ufo" ++ AssetUse.picture.suffix := by decide
    rw [hpath, Ne, findAsset_append hfolder]
    rintro ⟨hfind, -⟩
    have hlatest := (Library.find?_load_iff kindsDiffer_ufoFiles hpicture hnames).mp hfind
    exact absurd (hlatest.last _ _ hsound rfl) (by decide)
  · rw [Ne, Library.load_snd_eq_length_iff]
    decide

end Scene
end StageScript

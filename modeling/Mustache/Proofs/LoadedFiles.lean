import Mathlib
import Mustache.Directory

/-!
Which files are loaded as partials. What is loaded is the content of a file below the folder, on
the path that the name spells, or spells with the extension. Since no part of a name begins with a
dot, the path never leads out of the folder, nor through a hidden one. A file that is hidden itself
is loaded for one kind of name: where the last part is empty, so that the extension alone is left.
-/

namespace Mustache

namespace Text

theorem split_at_eq_split_on (mark : Char) (text : List Char) :
    splitAt mark text = text.splitOn mark := by
  induction text with
  | nil => rfl
  | cons c rest ih =>
      rw [splitAt, List.splitOn_cons_eq_if_modifyHead, ih]
      simp only [beq_iff_eq]
      split
      · rfl
      · cases split : rest.splitOn mark with
        | nil => exact absurd split (List.splitOn_ne_nil mark rest)
        | cons piece pieces => rfl

/-- Text without the mark goes to the last piece when it is put behind. -/
theorem exists_split_at_append (mark : Char) (text : List Char) {tail : List Char}
    (unmarked : mark ∉ tail) :
    ∃ front last, splitAt mark text = front ++ [last] ∧
      splitAt mark (text ++ tail) = front ++ [last ++ tail] ∧
      (last = [] → ∀ c ∈ text.getLast?, c = mark) := by
  simp only [split_at_eq_split_on]
  by_cases among : mark ∈ text
  · obtain ⟨reversed, before, split, absent⟩ :=
      List.eq_append_cons_of_mem (List.mem_reverse.2 among)
    have parted : text = before.reverse ++ mark :: reversed.reverse := by
      rw [← List.reverse_reverse text, split]
      simp
    have unmarkedEnd : mark ∉ reversed.reverse := by simpa using absent
    refine ⟨before.reverse.splitOn mark, reversed.reverse, ?_, ?_, ?_⟩
    · rw [parted, List.splitOn_append_cons_self, List.splitOn_eq_singleton unmarkedEnd]
    · have unmarkedAll : mark ∉ reversed.reverse ++ tail := by
        simp only [List.mem_append, not_or]
        exact ⟨unmarkedEnd, unmarked⟩
      rw [parted, List.append_assoc, List.cons_append, List.splitOn_append_cons_self,
        List.splitOn_eq_singleton unmarkedAll]
    · intro nothing c held
      rw [parted, nothing] at held
      simpa [eq_comm] using held
  · refine ⟨[], text, ?_, ?_, ?_⟩
    · exact List.splitOn_eq_singleton among
    · apply List.splitOn_eq_singleton
      simp only [List.mem_append, not_or]
      exact ⟨among, unmarked⟩
    · rintro rfl c held
      cases held

end Text

/-- The names of entries on a path. It does not matter how many slashes stand between them. -/
def entryNames (path : String) : List String :=
  ((Text.splitAt '/' path.toList).map String.ofList).filter fun name => name != ""

def Hidden (name : String) : Prop := name.toList.head? = some '.'

theorem entry_names_join (above below : String) :
    entryNames (above ++ "/" ++ below) = entryNames above ++ entryNames below := by
  have parted : (above ++ "/" ++ below).toList = above.toList ++ '/' :: below.toList := by simp
  unfold entryNames
  rw [parted]
  simp only [Text.split_at_eq_split_on, List.splitOn_append_cons_self, List.map_append,
    List.filter_append]

namespace Folder

/-- Names lead from one folder into the next, and the last of them to a file of the content. -/
inductive Holds : Folder → List String → List UInt8 → Prop
  | file {folder : Folder} {name : String} {content : List UInt8}
      (found : folder.lookup name = some (.file content)) : Holds folder [name] content
  | within {folder entries : Folder} {name : String} {names : List String}
      {content : List UInt8} (found : folder.lookup name = some (.folder entries))
      (below : Holds entries names content) : Holds folder (name :: names) content

theorem holds_of_read_parts {folder : Folder} {names : List String} {content : List UInt8}
    (read : folder.readParts names = .content content) : folder.Holds names content := by
  induction names generalizing folder with
  | nil => cases read
  | cons name rest ih =>
      simp only [readParts] at read
      split at read
      · cases read
      · split at read
        · cases read
        next held found =>
          split at read
          next last =>
            cases read
            rw [List.isEmpty_iff.1 last]
            exact .file found
          · cases read
        next entries found => exact .within found (ih read)

theorem holds_of_read {folder : Folder} {path : String} {names : List String}
    {content : List UInt8} (readable : folder.read path names = .content content) :
    folder.Holds names content := by
  unfold read at readable
  split at readable
  · cases readable
  · exact holds_of_read_parts readable

theorem text_of_eq_some {path text : String} {result : FileResult}
    (answered : textOf path result = .ok (some text)) :
    ∃ content, result = .content content ∧ Text.decode? content = some text := by
  unfold textOf at answered
  split at answered
  next content =>
    split at answered
    next decoded decodes =>
      cases answered
      exact ⟨content, rfl, decodes⟩
    · cases answered
  · cases answered
  · cases answered

end Folder

namespace PartialPath

/-- How a path reads its name: by the names of the parts before the last, and by the last unless
it is empty; the extension goes to the last. No part is hidden. -/
structure Reads (path : PartialPath) (name : String) (outer : List String) (last : String) :
    Prop where
  names : entryNames name = outer ++ [last].filter fun part => part != ""
  extended : entryNames (name ++ extension) = outer ++ [last ++ extension]
  parts : path.parts = entryNames name
  extendedParts : path.extendedParts = entryNames (name ++ extension)
  open_end : last = "" → ∀ c ∈ name.toList.getLast?, c = '/'
  shown : ∀ part ∈ outer ++ [last], ¬Hidden part

theorem of_name_eq_some {name : String} {path : PartialPath} (named : ofName? name = some path) :
    path.written = (Text.splitAt '/' name.toList).map String.ofList ∧
      ∀ part ∈ path.written, ¬Hidden part := by
  simp only [ofName?] at named
  split at named
  · cases named
  next allowed =>
    cases named
    refine ⟨rfl, ?_⟩
    intro part among hidden
    obtain ⟨spelled, given, rfl⟩ := List.mem_map.1 among
    have dotted : spelled.head? = some '.' := by simpa [Hidden] using hidden
    apply allowed
    rw [List.any_eq_true]
    exact ⟨spelled, given, by simp [dotted]⟩

theorem extended_parts_of_written {path : PartialPath} {outer : List String} {last : String}
    (written : path.written = outer ++ [last]) :
    path.extendedParts = outer.filter (fun part => part != "") ++ [last ++ extension] := by
  have openIff : path.isOpen = true ↔ last = "" := by simp [isOpen, written]
  unfold extendedParts
  by_cases empty : last = ""
  · rw [if_pos (openIff.2 empty)]
    simp [parts, written, empty]
  · have filled : ¬path.isOpen = true := by rwa [openIff]
    rw [if_neg filled]
    simp [parts, written, empty]

theorem reads_of_name {name : String} {path : PartialPath} (named : ofName? name = some path) :
    ∃ outer last, path.Reads name outer last := by
  obtain ⟨written, shown⟩ := of_name_eq_some named
  have slashless : '/' ∉ extension.toList := by decide
  obtain ⟨front, last, split, splitLonger, openEnd⟩ :=
    Text.exists_split_at_append '/' name.toList slashless
  rw [split, List.map_append, List.map_singleton] at written
  have extended : entryNames (name ++ extension) =
      (front.map String.ofList).filter (fun part => part != "") ++
        [String.ofList last ++ extension] := by
    have filled : String.ofList last ++ extension ≠ "" := by simp [extension]
    simp [entryNames, splitLonger, filled]
  refine ⟨(front.map String.ofList).filter fun part => part != "", String.ofList last, ?_, extended,
    ?_, ?_, ?_, ?_⟩
  · simp [entryNames, split]
  · simp [parts, entryNames, split, written]
  · rw [extended, extended_parts_of_written written]
  · intro empty
    exact openEnd (by simpa using empty)
  · intro part among
    apply shown part
    rw [written]
    exact List.mem_append.2 ((List.mem_append.1 among).imp_left List.mem_of_mem_filter)

variable {path : PartialPath} {name : String} {outer : List String} {last : String}

theorem Reads.names_shown (reads : path.Reads name outer last) :
    ∀ part ∈ entryNames name, ¬Hidden part := by
  intro part among
  rw [reads.names] at among
  apply reads.shown part
  exact List.mem_append.2 ((List.mem_append.1 among).imp_right List.mem_of_mem_filter)

/-- With the extension a last part is as hidden as without, unless it is empty without. -/
theorem Reads.extended_shown (reads : path.Reads name outer last) :
    (∀ part ∈ entryNames (name ++ extension), ¬Hidden part) ∨
      (∀ c ∈ name.toList.getLast?, c = '/') ∧
        entryNames (name ++ extension) = entryNames name ++ [extension] := by
  by_cases empty : last = ""
  · right
    refine ⟨reads.open_end empty, ?_⟩
    rw [reads.extended, reads.names, empty]
    simp
  · left
    intro part among hidden
    rw [reads.extended] at among
    rcases List.mem_append.1 among with before | final
    · exact reads.shown part (List.mem_append_left _ before) hidden
    · have sameHead : (last ++ extension).toList.head? = last.toList.head? := by
        have filled : last.toList ≠ [] := by simpa using empty
        rw [String.toList_append, List.head?_append_of_ne_nil _ filled]
      rw [List.mem_singleton.1 final, Hidden, sameHead] at hidden
      exact reads.shown last (by simp) hidden

end PartialPath

theorem Folder.holds_of_load {folder : Folder} {path wanted text : String}
    (loaded : folder.load path wanted = .ok (some text)) :
    ∃ route, PartialPath.ofName? wanted = some route ∧
      ∃ names content, folder.Holds names content ∧ Text.decode? content = some text ∧
        (names = route.parts ∨ names = route.extendedParts) := by
  unfold Folder.load at loaded
  split at loaded
  · cases loaded
  next route named =>
    refine ⟨route, named, ?_⟩
    have byExtension (spelled : String)
        (answered : textOf spelled (folder.read spelled route.extendedParts) = .ok (some text)) :
        ∃ names content, folder.Holds names content ∧ Text.decode? content = some text ∧
          (names = route.parts ∨ names = route.extendedParts) := by
      obtain ⟨content, read, decodes⟩ := text_of_eq_some answered
      exact ⟨_, content, holds_of_read read, decodes, .inr rfl⟩
    dsimp only at loaded
    split at loaded
    · exact byExtension _ loaded
    · split at loaded
      next content read =>
        obtain ⟨_, same, decodes⟩ := text_of_eq_some loaded
        cases same
        exact ⟨_, content, holds_of_read read, decodes, .inl rfl⟩
      · exact byExtension _ loaded

/-- What is loaded as a partial is the content of a file below the folder, on the path that the
name spells there, or spells with the extension. Nothing on this path begins with a dot, unless the
name is empty or ends in a slash: then the file is the one named by the extension alone, and
nothing before it begins with a dot. -/
theorem loaded_partial_is_file_below {folder : Folder} {path wanted text : String}
    (loaded : folder.load path wanted = .ok (some text)) :
    ∃ names content, folder.Holds names content ∧ Text.decode? content = some text ∧
      (entryNames (path ++ "/" ++ wanted) = entryNames path ++ names ∨
        entryNames (path ++ "/" ++ wanted ++ ".mustache") = entryNames path ++ names) ∧
      ((∀ name ∈ names, ¬Hidden name) ∨
        (∀ c ∈ wanted.toList.getLast?, c = '/') ∧ names = entryNames wanted ++ [".mustache"] ∧
          ∀ name ∈ entryNames wanted, ¬Hidden name) := by
  obtain ⟨route, named, names, content, holds, decodes, spelled⟩ := Folder.holds_of_load loaded
  obtain ⟨outer, last, reads⟩ := PartialPath.reads_of_name named
  refine ⟨names, content, holds, decodes, ?_, ?_⟩
  · rcases spelled with rfl | rfl
    · left
      rw [entry_names_join, reads.parts]
    · right
      have longer : path ++ "/" ++ wanted ++ ".mustache" =
          path ++ "/" ++ (wanted ++ PartialPath.extension) := String.append_assoc
      rw [longer, entry_names_join, reads.extendedParts]
  · rcases spelled with rfl | rfl
    · rw [reads.parts]
      exact .inl reads.names_shown
    · rw [reads.extendedParts]
      rcases reads.extended_shown with shown | ⟨openEnd, alone⟩
      · exact .inl shown
      · exact .inr ⟨openEnd, alone, reads.names_shown⟩

theorem nested_file_is_loaded_with_its_extension :
    let folder : Folder := [("nested", .folder [("item.mustache", .file [108, 105])])]
    folder.load "partials" "nested/item" = .ok (some "li") ∧
      ∃ names content, folder.Holds names content ∧ Text.decode? content = some "li" ∧
        (entryNames "partials/nested/item" = entryNames "partials" ++ names ∨
          entryNames "partials/nested/item.mustache" = entryNames "partials" ++ names) ∧
        ∀ name ∈ names, ¬Hidden name := by
  intro folder
  have loaded : folder.load "partials" "nested/item" = .ok (some "li") := by
    have decodes : Text.decode? [108, 105] = some "li" := by cbv
    have short : ¬255 < "nested".utf8ByteSize ∧ ¬255 < "item".utf8ByteSize ∧
        ¬255 < "item.mustache".utf8ByteSize ∧ ¬4095 < "partials/nested/item".utf8ByteSize ∧
        ¬4095 < "partials/nested/item.mustache".utf8ByteSize := by decide
    simp [folder, Folder.load, PartialPath.ofName?, Text.splitAt, PartialPath.below,
      PartialPath.isOpen, PartialPath.parts, PartialPath.extendedParts, PartialPath.extension,
      Folder.read, Folder.pathLimit, Folder.readParts, Folder.nameLimit, Folder.textOf,
      List.lookup, short, decodes]
  obtain ⟨names, content, holds, decodes, spelled, shown | ⟨openEnd, _⟩⟩ :=
    loaded_partial_is_file_below loaded
  · exact ⟨loaded, names, content, holds, decodes, spelled, shown⟩
  · exact absurd (openEnd 'm' rfl) (by decide)

/-- A name that ends in a slash comes to a hidden file, although no part of the name is hidden. -/
theorem hidden_file_is_loaded_for_open_name :
    let folder : Folder := [("sub", .folder [(".mustache", .file [104, 105, 100, 100, 101, 110])])]
    folder.load "partials" "sub/" = .ok (some "hidden") ∧
      ∀ names content, folder.Holds names content → ∃ name ∈ names, Hidden name := by
  intro folder
  constructor
  · have decodes : Text.decode? [104, 105, 100, 100, 101, 110] = some "hidden" := by cbv
    have short : ¬255 < "sub".utf8ByteSize ∧ ¬255 < ".mustache".utf8ByteSize ∧
        ¬4095 < "partials/sub/.mustache".utf8ByteSize := by decide
    simp [folder, Folder.load, PartialPath.ofName?, Text.splitAt, PartialPath.below,
      PartialPath.isOpen, PartialPath.parts, PartialPath.extendedParts, PartialPath.extension,
      Folder.read, Folder.pathLimit, Folder.readParts, Folder.nameLimit, Folder.textOf, short,
      decodes]
  · intro names content holds
    have only {key name : String} {entry found : Entry}
        (held : List.lookup name [(key, entry)] = some found) : name = key ∧ found = entry := by
      obtain ⟨before, after, shape, _⟩ := List.lookup_eq_some_iff.1 held
      have among : (name, found) ∈ [(key, entry)] := by simp [shape]
      exact Prod.mk.inj (List.mem_singleton.1 among)
    cases holds with
    | file found => cases (only found).2
    | within found below =>
        cases (only found).2
        cases below with
        | file found => exact ⟨".mustache", by simp [(only found).1], rfl⟩
        | within found _ => cases (only found).2

end Mustache

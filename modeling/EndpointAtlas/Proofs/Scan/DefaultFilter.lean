import EndpointAtlas.FileFilter
import EndpointAtlas.Proofs.Scan.Names

/-!
The filter of a project that sets no patterns. Its one pattern matches whatever ends as a Go file
does, so only the names of files decide.
-/

namespace EndpointAtlas

open Text

theorem to_list_loop (bytes : ByteArray) (index : Nat) (taken : List UInt8) :
    ByteArray.toList.loop bytes index taken = taken.reverse ++ bytes.data.toList.drop index := by
  fun_induction ByteArray.toList.loop bytes index taken with
  | case1 index taken within ih =>
      have inside : index < bytes.data.toList.length := by simpa using within
      rw [ih, List.reverse_cons, List.append_assoc, List.drop_eq_getElem_cons inside]
      simp [ByteArray.get!, getElem!_pos, within]
  | case2 index taken past =>
      have outside : bytes.data.toList.length ≤ index := by simpa using past
      rw [List.drop_eq_nil_of_le outside, List.append_nil]

namespace Glob

theorem bytes_of_append (first second : List Char) :
    bytesOf (first ++ second) = bytesOf first ++ bytesOf second := by
  simp [bytesOf, ByteArray.toList, to_list_loop]

theorem mem_ends (first second : List UInt8) : second ∈ ends (first ++ second) := by
  induction first with
  | nil => cases second <;> simp [ends]
  | cons byte rest ih => simp [ends, ih]

theorem mem_leaves_all_cons {token : Token} {rest : List Token} {texts : List (List UInt8)}
    {text left last : List UInt8} (listed : text ∈ texts) (leaves : left ∈ leaves token text)
    (later : ∀ {others}, left ∈ others → last ∈ leavesAll rest others) :
    last ∈ leavesAll (token :: rest) texts := by
  rw [leavesAll]
  exact later (List.mem_eraseDups.2 (List.mem_flatMap.2 ⟨text, listed, leaves⟩))

/-- Letters take themselves off a text, up to its end. -/
theorem mem_leaves_all_literals {text : List Char} {texts : List (List UInt8)}
    (listed : bytesOf text ∈ texts) : [] ∈ leavesAll (text.map .literal) texts := by
  induction text generalizing texts with
  | nil =>
      rw [List.map_nil, leavesAll]
      simpa [bytesOf] using listed
  | cons c rest ih =>
      have split : bytesOf (c :: rest) = bytesOf [c] ++ bytesOf rest := bytes_of_append [c] rest
      have leaves : bytesOf rest ∈ leaves (.literal c) (bytesOf (c :: rest)) := by
        rw [Glob.leaves, split, List.isPrefixOf?_eq_some_iff_append_eq.2 rfl]
        exact List.mem_singleton_self _
      exact mem_leaves_all_cons listed leaves ih

def defaultTokens : List Token := .leading :: .many :: ['.', 'g', 'o'].map .literal

theorem read_default_pattern : read FileFilter.defaultPattern = .ok defaultTokens := by
  simp [read, FileFilter.defaultPattern, readFrom, Draft.pushStars, Draft.push, Draft.inGroup,
    defaultTokens]

theorem is_match_default_tokens {text : String} {before : List Char}
    (split : text.toList = before ++ ['.', 'g', 'o']) : isMatch defaultTokens text = true := by
  have reached : [] ∈ leavesAll defaultTokens [bytesOf text.toList] := by
    rw [split, bytes_of_append]
    apply mem_leaves_all_cons (List.mem_singleton_self _) List.mem_cons_self
    intro texts whole
    exact mem_leaves_all_cons whole (mem_ends _ _) mem_leaves_all_literals
  exact List.contains_iff_mem.2 reached

end Glob

namespace FileFilter

def default (includeTests : Bool) : FileFilter := ⟨[Glob.defaultTokens], [], includeTests⟩

theorem of_patterns_nil (includeTests : Bool) :
    ofPatterns [] [] includeTests = .ok (default includeTests) := by
  have included : readPatterns [defaultPattern] = .ok [Glob.defaultTokens] := by
    rw [readPatterns, List.mapM_cons, Glob.read_default_pattern]
    rfl
  unfold ofPatterns
  rw [List.isEmpty_nil, if_pos rfl, included]
  rfl

end FileFilter

theorem exists_of_extension_of {name ext : List Char} (shown : Path.extensionOf? name = some ext) :
    ∃ before, name = before ++ '.' :: ext := by
  unfold Path.extensionOf? at shown
  split at shown
  · rename_i before after cut
    split at shown
    · cases shown
    · obtain rfl := Option.some.inj shown
      obtain ⟨mark, marked, split, -⟩ := cut_last_eq_some cut
      exact ⟨before, by rw [split, beq_iff_eq.1 marked]⟩
  · cases shown

theorem exists_text_path_through (names : List String) (last : String) :
    ∃ before, (pathThrough (names ++ [last])).text.toList = before ++ last.toList := by
  rw [pathThrough, String.toList_intercalate, List.map_append]
  induction names with
  | nil => exact ⟨[], by simp⟩
  | cons name rest ih =>
      obtain ⟨before, split⟩ := ih
      refine ⟨name.toList ++ '/' :: before, ?_⟩
      rw [List.map_cons, List.cons_append, List.intercalate_cons_of_ne_nil (by simp), split]
      simp

theorem accepts_nil (filter : FileFilter) : filter.accepts (pathThrough []) = false := by
  have bare : (pathThrough []).extension? = none := by decide
  simp [FileFilter.accepts, bare]

theorem accepts_default {names : List String} {last : String}
    (named : ∀ name ∈ names ++ [last], IsEntryName name) (includeTests : Bool) :
    (FileFilter.default includeTests).accepts (pathThrough (names ++ [last])) =
      (isGoName last && (includeTests || !isTestName last)) := by
  have parts : (pathThrough (names ++ [last])).parts =
      names.map String.toList ++ [last.toList] := by
    rw [parts_path_through named (by simp), List.map_append]
    rfl
  have fileName : (pathThrough (names ++ [last])).fileName? = some last := by
    rw [Path.file_name_of_parts parts (named last (by simp)).1, String.ofList_toList]
  have extension : ((pathThrough (names ++ [last])).extension? == some "go") = isGoName last := by
    rw [Path.extension?, fileName, Option.bind_some, isGoName]
    cases Path.extensionOf? last.toList with
    | none => rfl
    | some ext =>
        have go : "go" = String.ofList ['g', 'o'] := by decide
        rw [Bool.eq_iff_iff, beq_iff_eq, beq_iff_eq, Option.map_some, Option.some.injEq,
          Option.some.injEq, go, String.ofList_inj]
  have isTest : isTestPath (pathThrough (names ++ [last])) = isTestName last := by
    rw [isTestPath, fileName]
    rfl
  unfold FileFilter.accepts FileFilter.default
  rw [extension, isTest]
  cases isGo : isGoName last with
  | false => simp
  | true =>
      have shown : Path.extensionOf? last.toList = some ['g', 'o'] := by simpa [isGoName] using isGo
      obtain ⟨before, ends⟩ := exists_of_extension_of shown
      obtain ⟨start, split⟩ := exists_text_path_through names last
      rw [ends, ← List.append_assoc] at split
      simp [Glob.is_match_default_tokens split]

end EndpointAtlas

/-
  ScriptSyntax/Proofs/File/Identifiers.lean
  =========================================
  The identifiers of a parsed file, as it accounts for them.

  Identifiers are counted by hand where they are made.  A node that stands for a name the text
  lacks may be made without being counted, but then that has been reported.

  An identifier is named by a token, and the keyword that is remembered of it is the one that the
  token was taken for.  That is the keyword which all of the name spells, unless the name is a
  keyword that goes on with a hyphen, as names of tags and of attributes may.
-/
import ScriptSyntax.Proofs.File.Silent
import ScriptSyntax.Proofs.Token.KeywordMark

namespace ScriptSyntax

open ScriptSyntax.Parser

/-! ## 1. Nodes and names -/

/-- Recording parents makes no identifiers. -/
theorem Arena.SameNodes.identifierNodes_eq {a b : Arena} (h : a.SameNodes b) :
    b.identifierNodes = a.identifierNodes := by
  have hkinds : b.nodes.map Node.kind = a.nodes.map Node.kind := by
    have hsize : b.nodes.size = a.nodes.size := h.size_eq
    refine Array.ext (by simpa using hsize) fun i hb ha => ?_
    have hi : i < b.nodes.size := by simpa using hb
    obtain ⟨m, hm, parent, hsame⟩ := h.get? (Array.getElem?_eq_getElem hi : b.get? ⟨i⟩ = some _)
    obtain ⟨_, heq⟩ := Array.getElem?_eq_some_iff.mp hm
    simp [hsame, heq]
  have hcount (c : Arena) : c.identifierNodes = (c.nodes.map Node.kind).countP (· == .identifier) := by
    rw [Array.countP_map]
    rfl
  rw [hcount, hcount, hkinds]

/-- The name of an identifier has been entered. -/
theorem Node.NamedBy.exists_name {names : NameTable} {tokens : List Token} {n : Node}
    (h : n.NamedBy names tokens) (hkind : n.kind = .identifier) {name : NameId}
    (hname : n.identifier? = some name) : ∃ word, names.find? word = some name := by
  unfold identifier? at hname
  split at hname
  · rename_i name' keyword hpayload
    cases hname
    rcases h hkind name keyword hpayload with ⟨hfound, -⟩ | ⟨t, -, -, hfound, -⟩
    · exact ⟨"", hfound⟩
    · exact ⟨t.value, hfound⟩
  · cases hname

/-- The keyword that is remembered of an identifier is the one before the first hyphen of its name. -/
theorem Node.NamedBy.keyword_eq {text : Array Char} {names : NameTable} {tokens : List Token} {n : Node}
    (h : n.NamedBy names tokens) (hmarked : ∀ t ∈ tokens, t.IsMarked text) (hkind : n.kind = .identifier)
    {name : NameId} {keyword : Option Keyword} (hpayload : n.payload = .identifier name keyword) :
    keyword = Keyword.ofText? (beforeHyphen (names.resolve name)) := by
  rcases h hkind name keyword hpayload with ⟨hname, rfl⟩ | ⟨t, ht, hword, hname, rfl⟩
  · rw [NameTable.resolve_of_find? hname, beforeHyphen_of_notMem (by simp)]
    rfl
  · rw [NameTable.resolve_of_find? hname]
    exact (hmarked t ht hword).1

/-! ## 2. Identifiers -/

/-- In every parsed file at most as many identifiers are counted as there are nodes of them, and just as
many if nothing was reported. The names are listed once each, and each identifier that has a name has one
that is listed. -/
theorem parseText_identifiers (fileName : String) (text : SourceText) (options : ParseOptions) :
    ∃ f, parseText fileName text options = .ok f
      ∧ f.identifierCount ≤ f.arena.identifierNodes
      ∧ (f.diagnostics = [] → f.identifierCount = f.arena.identifierNodes)
      ∧ f.identifiers.Nodup
      ∧ ∀ id n name, f.arena.get? id = some n → n.kind = .identifier → n.identifier? = some name →
        name.index < f.names.size
          ∧ ∀ word, f.identifierText? n = some word → word ≠ "" → word ∈ f.identifiers := by
  obtain ⟨context, root, s, hrooted, hparse, hadds, hgrown⟩ := exists_grown fileName text options
  obtain ⟨tokens, hleaves⟩ := hrooted.run.leaves
  have hsame := sameNodes_completeFile fileName text options root s
  have hcounted : s.identifierCount ≤ s.arena.identifierNodes := by
    simpa [ParserState.initial, Arena.identifierNodes, Arena.empty] using hadds.counted
  refine ⟨_, hparse, ?_, fun hsilent => ?_, ?_, fun id n name hn hkind hname => ?_⟩
  · rw [hsame.identifierNodes_eq]
    exact hcounted
  · rw [hsame.identifierNodes_eq]
    exact (hgrown hsilent).counted
  · exact (hadds.distinct .nil).filter _
  · obtain ⟨m, hm, parent, rfl⟩ := hsame.get? hn
    obtain ⟨word, hword⟩ := (hleaves.named id m (Nat.zero_le _) hm).exists_name hkind hname
    refine ⟨NameTable.index_lt_of_find? hword, fun word' htext hne => ?_⟩
    have heq : word' = word := by
      have htext : some (s.names.resolve name) = some word' := by
        rw [← htext, SourceFile.identifierText?, hname]
        rfl
      rw [NameTable.resolve_of_find? hword] at htext
      exact (Option.some.inj htext).symm
    subst heq
    exact List.mem_filter.mpr ⟨NameTable.mem_of_find? hword, by simpa using hne⟩

/-- In every parsed file the keyword that is remembered of an identifier is the one that its name spells
before the first hyphen. So it is the keyword that the name is, or none if the name is none, unless the name
is a keyword that goes on with a hyphen; then it is not. -/
theorem parseText_keyword_iff (fileName : String) (text : SourceText) (options : ParseOptions) :
    ∃ f, parseText fileName text options = .ok f
      ∧ ∀ id n name keyword, f.arena.get? id = some n → n.kind = .identifier →
        n.payload = .identifier name keyword →
          keyword = Keyword.ofText? (beforeHyphen (f.names.resolve name))
            ∧ (keyword = Keyword.ofText? (f.names.resolve name) ↔ ¬ExtendsKeyword (f.names.resolve name)) := by
  obtain ⟨context, root, s, hrooted, hparse⟩ := exists_rooted fileName text options
  obtain ⟨tokens, hleaves⟩ := hrooted.run.leaves
  have hmarked := (hleaves.reads.isMarked (Token.isMarked_scanAt text.chars 0)).2
  refine ⟨_, hparse, fun id n name keyword hn hkind hpayload => ?_⟩
  obtain ⟨m, hm, parent, rfl⟩ := (sameNodes_completeFile fileName text options root s).get? hn
  have hkeyword := (hleaves.named id m (Nat.zero_le _) hm).keyword_eq hmarked hkind hpayload
  refine ⟨hkeyword, ?_⟩
  rw [hkeyword]
  exact ofText?_beforeHyphen_eq_iff

end ScriptSyntax

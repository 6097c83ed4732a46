import Outline.Proofs.Yaml.Typing

/-!
# Entries that are read back

**A line with a name and a value is loaded as a mapping with that entry**: with what a plain text
stands for (`load_plainEntry`), with a text (`load_quotedEntry`), or with a list of two
(`load_itemsEntry`). A name of more than 1024 letters cannot be a key, and the line is not read
(`load_longName`).
-/

namespace Outline.Yaml

open Scan

variable {name : List Char} {key : Value}

/-! ## Mappings with one entry -/

theorem build_entry (hmerge : plainTag name ≠ .merge) (hvalue : plainTag name ≠ .value)
    (hkey : buildScalar (plainTag name) (String.ofList name) = .ok key) (n : Node) :
    (Node.mapping .map [(.scalar (plainTag name) (String.ofList name), n)]).build 0 =
      (n.build 1).map fun v => .map [(key, v)] := by
  have hcollection := isCollection_plainTag name
  have hwell : Node.mergesWell [(.scalar (plainTag name) (String.ofList name), n)] = true := by
    simp [Node.mergesWell, Node.tag, hmerge]
  have hentries : Node.buildEntries 1 [(.scalar (plainTag name) (String.ofList name), n)] =
      (.ok [], both List.cons (both Prod.mk (.ok key) (n.build 1)) (.ok [])) := by
    simp [Node.buildEntries, Node.build, Node.tag, hmerge, hvalue, hcollection, hkey, atDepth]
  have hbuild : (Node.mapping .map [(.scalar (plainTag name) (String.ofList name), n)]).build 0 =
      (mapEntries 1 (Node.mergesWell [(.scalar (plainTag name) (String.ofList name), n)])
        (Node.buildEntries 1 [(.scalar (plainTag name) (String.ofList name), n)])).map .map := by
    simp [Node.build]
  rw [hbuild, hwell, hentries]
  cases n.build 1 <;> rfl

/-- **What a plain scalar stands for.** -/
def plainValue (text : List Char) : Except Fault Value :=
  buildScalar (plainTag text) (String.ofList text)

theorem load_of_tokens {line : String} {ts : List Token} {n : Node}
    (htokens : tokens line.toList = .ok ts) (hnode : Node.ofTokens? ts = .ok (some n)) :
    load line = (n.build 0).mapError Prod.snd := by
  rw [load, htokens]
  simp only [bind, Except.bind, hnode]
  cases n.build 0 <;> rfl

/-! ## Lines of entries -/

variable {rest : List Char} {line : String}

theorem load_plainEntry (h : Lettered name) (hlength : name.length ≤ 1024) {cs gap : List Char}
    (hcs : isPlainLine cs = true) (hbehind : Behind gap rest) (hpassed : Passed rest [])
    (hyaml : (gap ++ rest).all isYamlChar = true)
    (hline : line.toList = name ++ ':' :: ' ' :: (cs ++ (gap ++ rest))) :
    ∃ key, load line = (plainValue cs).map fun v => .map [(key, v)] := by
  obtain ⟨hmerge, hvalue, key, hkey⟩ := exists_buildScalar_of_lettered h
  have htokens := tokens_plainEntry h hlength hcs hbehind hpassed hyaml
  rw [← hline] at htokens
  have hnode := ofTokens?_scalarEntry (String.ofList name) (String.ofList cs) true
  rw [String.toList_ofList] at hnode
  have hscalar : (Node.scalar (Parse.scalarTag none true (String.ofList cs))
      (String.ofList cs)).build 1 = atDepth 1 (plainValue cs) := by
    simp [Parse.scalarTag, Node.build, isCollection_plainTag, plainValue]
  refine ⟨key, ?_⟩
  rw [load_of_tokens htokens hnode, build_entry hmerge hvalue hkey, hscalar]
  cases plainValue cs <;> rfl

theorem load_quotedEntry (h : Lettered name) (hlength : name.length ≤ 1024) {text : List Char}
    (htext : Quotable text) (hpassed : Passed rest []) (hyaml : rest.all isYamlChar = true)
    (hline : line.toList = name ++ ':' :: ' ' :: quoted text rest) :
    ∃ key, load line = .ok (.map [(key, .str (String.ofList text))]) := by
  obtain ⟨hmerge, hvalue, key, hkey⟩ := exists_buildScalar_of_lettered h
  have htokens := tokens_quotedEntry h hlength htext hpassed hyaml
  rw [← hline] at htokens
  have hnode := ofTokens?_scalarEntry (String.ofList name) (String.ofList text) false
  rw [String.toList_ofList] at hnode
  refine ⟨key, ?_⟩
  rw [load_of_tokens htokens hnode, build_entry hmerge hvalue hkey]
  rfl

theorem load_itemsEntry (h : Lettered name) (hlength : name.length ≤ 1024)
    {first second : List Char} (hfirst : Quotable first) (hsecond : Quotable second)
    (hshort : first.length ≤ 1000 ∧ second.length ≤ 1000) (hpassed : Passed rest [])
    (hyaml : rest.all isYamlChar = true)
    (hline : line.toList =
      name ++ ':' :: ' ' :: '[' :: quoted first (',' :: ' ' :: quoted second (']' :: rest))) :
    ∃ key, load line =
      .ok (.map [(key, .list [.str (String.ofList first), .str (String.ofList second)])]) := by
  obtain ⟨hmerge, hvalue, key, hkey⟩ := exists_buildScalar_of_lettered h
  have htokens := tokens_itemsEntry h hlength hfirst hsecond hshort hpassed hyaml
  rw [← hline] at htokens
  have hnode := ofTokens?_itemsEntry (String.ofList name) (String.ofList first)
    (String.ofList second)
  rw [String.toList_ofList] at hnode
  refine ⟨key, ?_⟩
  rw [load_of_tokens htokens hnode, build_entry hmerge hvalue hkey]
  rfl

/-! ## Names that are too long for a key -/

theorem arrives_longName (hlength : 1024 < name.length) : Arrives (nameState name (':' :: rest))
    { nameState name (':' :: rest) with keys := [] } where
  passes fuel := by
    have hpassed : Passed [] (':' :: rest) := passed_cons (List.forall_mem_nil _) (by decide)
    have hpass : (toNextToken (fuel + 1)).run (nameState name (':' :: rest)) =
        .ok ((), nameState name (':' :: rest)) := run_toNextToken hpassed rfl fuel
    -- at the colon the name is too far behind to be remembered as a key
    rw [run_bind_ok hpass, dropStaleKeys, run_bind_ok rfl]
    simp [nameState, hlength]
    rfl
  stays := run_closeDeeper (.inr (by simp [nameState]))

theorem next_longName (hlength : 1024 < name.length) (hgap : isBlankGap rest.head? = true)
    (fuel : Nat) : (next (fuel + 1)).run (nameState name (':' :: rest)) = .error .notYaml := by
  rw [next_colon (arrives_longName hlength) rfl hgap]
  rfl

/-- A name that is too long for a key cannot be read. -/
theorem load_longName (h : Lettered name) (hlength : 1024 < name.length)
    (hline : line.toList = name ++ ':' :: ' ' :: rest) : load line = .error .notYaml := by
  have hgap : isBlankGap (' ' :: rest).head? = true := rfl
  have hall (width fuel : Nat) : (all (width + 1) (fuel + 2)).run
      (firstState (name ++ ':' :: ' ' :: rest)) = .error .notYaml := by
    rw [all, run_bind_ok (next_name h hgap width)]
    simp only [if_true]
    rw [all, StateT.run_bind, next_longName hlength hgap width]
    rfl
  have htokens : tokens line.toList = .error .notYaml := by
    rw [hline, tokens_eq (h.head?_append_ne _ (by decide))]
    split
    · rw [hall]
      rfl
    · rfl
  rw [load, htokens]
  rfl

end Outline.Yaml

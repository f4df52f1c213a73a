import BoxFlow.Proofs.Stylesheet.Concatenation

/-!
# Declarations in a rule and in a style attribute

The text between the braces of a rule is read in the same way as a style attribute, apart from one
thing: a rule takes acceptable declarations only. A text without braces that closes its comments is
the body of the one block of `p{…}` (`Source.blocks_outline_rule`). So the rule declares what the
acceptable declarations of the text come to in turn, which is what a style attribute with this text
declares if all of them are acceptable (`Stylesheet.rule_declares_as_inline`).
-/

set_option autoImplicit false

namespace BoxFlow

/-- Between the braces of a rule stands its body. Comments in it have to be closed in it. -/
theorem Source.blocks_outline_rule {body : List Char} (hopen : '\x7b' ∉ body)
    (hclose : '\x7d' ∉ body) (hclosed : endsInComment false body = false) :
    (outline ('p' :: '\x7b' :: body ++ ['\x7d'])).blocks = [⟨['p'], withoutComments body⟩] := by
  have hbody : Balanced (withoutComments body) := by
    have hsub := uncommentedFrom_sublist false body
    exact .of_notMem (fun h => hopen (hsub.mem h)) fun h => hclose (hsub.mem h)
  have hread : withoutComments ('p' :: '\x7b' :: body ++ ['\x7d']) =
      ['p'] ++ '\x7b' :: withoutComments body ++ '\x7d' :: [] := by
    have hseam := uncommentedFrom_append_cons (c := '\x7d') (by decide) (by decide) false body []
    rw [hclosed] at hseam
    exact congrArg (fun cs => 'p' :: '\x7b' :: cs) hseam
  rw [outline, hread, blocks_outlineFrom_block (by decide) hbody]
  rfl

/-- The acceptable declarations of a body are declared in turn. -/
theorem Block.ofBody_eq_foldl_filter (body : List Char) :
    ofBody body = ((Source.declarations body).filter acceptable).foldl
      (fun b pair => b.declare pair.1 pair.2) empty := by
  rw [List.foldl_filter]
  rfl

/-- The block of a style attribute is that of a rule body if all its declarations are acceptable. -/
theorem Block.ofBody_eq_ofInline {text : String}
    (h : ∀ pair ∈ Source.declarations (Source.withoutComments text.toList), acceptable pair) :
    ofBody (Source.withoutComments text.toList) = ofInline text := by
  rw [ofBody_eq_foldl_filter, List.filter_eq_self.2 h]
  rfl

namespace Stylesheet

open Source

/-- A text without braces that closes its comments, as the body of a rule: the sheet has this rule
only, and the rule declares the acceptable declarations of the text in turn. If all of them are
acceptable, that is the block of a style attribute with this text. -/
theorem rule_declares_as_inline (d : String) (hopen : '\x7b' ∉ d.toList)
    (hclose : '\x7d' ∉ d.toList) (hclosed : endsInComment false d.toList = false) :
    let pairs := declarations (withoutComments d.toList)
    let sheet := parse ("p\x7b" ++ d ++ "\x7d")
    sheet.rules = [⟨"p", { tag := "p" },
        (pairs.filter fun pair => Value.isValid pair.1 pair.2).foldl
          (fun b pair => b.declare pair.1 pair.2) .empty⟩] ∧
      ((∀ pair ∈ pairs, Value.isValid pair.1 pair.2) →
        sheet.get? "p" = some (Block.ofInline d)) := by
  intro pairs sheet
  have hrules : sheet.rules = [⟨"p", { tag := "p" }, Block.ofBody (withoutComments d.toList)⟩] := by
    have hlist : ("p\x7b" ++ d ++ "\x7d").toList = 'p' :: '\x7b' :: d.toList ++ ['\x7d'] := by
      rw [String.toList_append, String.toList_append]
      rfl
    have hgroup : Selector.parseGroup (RawBlock.group ⟨['p'], withoutComments d.toList⟩) =
        .ok [("p", { tag := "p" })] := rfl
    show (parse ("p\x7b" ++ d ++ "\x7d")).rules = _
    rw [parse, hlist, blocks_outline_rule hopen hclose hclosed, List.foldl_cons, List.foldl_nil,
      addBlock, hgroup]
    show [_] = _
    rw [Block.empty_extend]
  refine ⟨?_, ?_⟩
  · rw [hrules, Block.ofBody_eq_foldl_filter]
    rfl
  · intro hvalid
    rw [get?, hrules, Block.ofBody_eq_ofInline hvalid]
    rfl

/-- A text with a comment and a shorthand, and one with a color that cannot be read. -/
theorem rule_declares_as_inline_margin :
    let d := "color: red; /* a: b; */ margin: 1px 2px"
    let mixed := "color: nonsense; margin: 1px 2px"
    ('\x7b' ∉ d.toList ∧ '\x7d' ∉ d.toList ∧ endsInComment false d.toList = false ∧
      ∀ pair ∈ declarations (withoutComments d.toList), Value.isValid pair.1 pair.2) ∧
    ('\x7b' ∉ mixed.toList ∧ '\x7d' ∉ mixed.toList ∧ endsInComment false mixed.toList = false) ∧
    (parse ("p\x7b" ++ d ++ "\x7d")).get? "p" = some (Block.ofInline d) ∧
    (parse ("p\x7b" ++ mixed ++ "\x7d")).rules =
      [⟨"p", { tag := "p" }, Block.ofInline "margin: 1px 2px"⟩] := by
  intro d mixed
  have hd : '\x7b' ∉ d.toList ∧ '\x7d' ∉ d.toList ∧ endsInComment false d.toList = false := by
    decide
  have hmixed : '\x7b' ∉ mixed.toList ∧ '\x7d' ∉ mixed.toList ∧
      endsInComment false mixed.toList = false := by decide
  have hvalid : ∀ pair ∈ declarations (withoutComments d.toList),
      Value.isValid pair.1 pair.2 := by decide +kernel
  refine ⟨⟨hd.1, hd.2.1, hd.2.2, hvalid⟩, hmixed,
    (rule_declares_as_inline d hd.1 hd.2.1 hd.2.2).2 hvalid,
    (rule_declares_as_inline mixed hmixed.1 hmixed.2.1 hmixed.2.2).1.trans ?_⟩
  decide +kernel

end Stylesheet

end BoxFlow

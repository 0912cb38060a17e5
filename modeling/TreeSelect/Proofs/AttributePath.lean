import TreeSelect.Matching.Attribute
import TreeSelect.Proofs.PathText

namespace TreeSelect.Matching
open TreeSelect.Tree

/-- A path leads from one node to another. Each part is the field of that name, or the field that the
ESTree attribute of that name stands for on nodes of the type, if the node has no field of the name
itself. -/
inductive Leads : Node → List String → Node → Prop
  | here (n : Node) : Leads n [] n
  | byField (n c m : Node) (part : String) (parts : List String) :
      n.child? part = some c → Leads c parts m → Leads n (part :: parts) m
  | byAttribute (n c m : Node) (part field : String) (parts : List String) :
      n.child? part = none → ESTree.fieldOf part n.type = some field → n.child? field = some c →
      Leads c parts m → Leads n (part :: parts) m

section Paths

theorem follow?_of_field (n c : Node) (part : String) (h : n.child? part = some c) :
    follow? n part = some c := by
  rw [follow?, h, Option.some_or]

theorem follow?_of_no_field (n : Node) (part : String) (h : n.child? part = none) :
    follow? n part = (ESTree.fieldOf part n.type).bind n.child? := by
  rw [follow?, h, Option.none_or]

/-- A path that begins with a part that can be followed goes on from the child that it leads to. -/
theorem leads_cons (n c m : Node) (part : String) (parts : List String)
    (hc : follow? n part = some c) (h : Leads c parts m) : Leads n (part :: parts) m := by
  cases hfield : n.child? part with
  | some d =>
    rw [follow?_of_field n d part hfield] at hc
    obtain rfl : d = c := Option.some.inj hc
    exact Leads.byField n d m part parts hfield h
  | none =>
    rw [follow?_of_no_field n part hfield] at hc
    obtain ⟨field, hfound, hchild⟩ := Option.bind_eq_some_iff.mp hc
    exact Leads.byAttribute n c m part field parts hfield hfound hchild h

/-- There is one node at most that a path leads to, found by following the parts in turn. -/
theorem leads_iff (n m : Node) (parts : List String) :
    Leads n parts m ↔ parts.foldlM follow? n = some m := by
  constructor
  · intro h
    induction h with
    | here n => rfl
    | byField n c m part parts hfield hrest ih =>
      rw [List.foldlM_cons, follow?_of_field n c part hfield]
      exact ih
    | byAttribute n c m part field parts hnone hfound hchild hrest ih =>
      rw [List.foldlM_cons, follow?_of_no_field n part hnone, hfound, Option.bind_some, hchild]
      exact ih
  · intro h
    induction parts generalizing n with
    | nil =>
      obtain rfl : n = m := Option.some.inj h
      exact Leads.here n
    | cons part parts ih =>
      rw [List.foldlM_cons] at h
      obtain ⟨c, hc, hrest⟩ := Option.bind_eq_some_iff.mp h
      exact leads_cons n c m part parts hc (ih c hrest)

theorem pathText_cons (source : List UInt8) (n c : Node) (part : String) (parts : List String)
    (hc : follow? n part = some c) : pathText source n (part :: parts) = pathText source c parts := by
  rw [pathText, hc]

/-- The node that the front of a path leads to has the value for what is left of the path. -/
theorem pathText_append (source : List UInt8) (n m : Node) (front back : List String)
    (h : Leads n front m) : pathText source n (front ++ back) = pathText source m back := by
  induction h with
  | here n => rfl
  | byField n c m part parts hfield hrest ih =>
    have hc := follow?_of_field n c part hfield
    rw [List.cons_append, pathText_cons source n c part _ hc, ih]
  | byAttribute n c m part field parts hnone hfound hchild hrest ih =>
    have hc : follow? n part = some c := by
      rw [follow?_of_no_field n part hnone, hfound]
      exact hchild
    rw [List.cons_append, pathText_cons source n c part _ hc, ih]

/-- A path whose front leads nowhere has no value, for a leaf answers only for the last part. -/
theorem pathText_append_none (source : List UInt8) (n : Node) (front back : List String)
    (hback : back ≠ []) (h : ∀ m, ¬ Leads n front m) :
    pathText source n (front ++ back) = none := by
  induction front generalizing n with
  | nil => exact absurd (Leads.here n) (h n)
  | cons part parts ih =>
    cases hc : follow? n part with
    | some c =>
      rw [List.cons_append, pathText_cons source n c part _ hc]
      apply ih
      intro m hm
      exact h m (leads_cons n c m part parts hc hm)
    | none =>
      have hmore : parts ++ back ≠ [] := List.append_ne_nil_of_right_ne_nil parts hback
      rw [List.cons_append, pathText, hc]
      exact if_neg hmore

end Paths

section Dots

/-- A dot between two texts parts the path of the one from that of the other. -/
theorem pathOf_dotted (front back : String) :
    pathOf (front ++ "." ++ back) = pathOf front ++ pathOf back := by
  have hchars : (front ++ "." ++ back).toList = front.toList ++ '.' :: back.toList := by
    simp
  rw [pathOf, pathOf, pathOf, hchars, split_eq_splitOn, split_eq_splitOn, split_eq_splitOn,
    ← List.map_append]
  exact congrArg _ (List.splitOn_append_cons_self _ _)

theorem pathOf_ne_nil (written : String) : pathOf written ≠ [] := by
  rw [pathOf, split_eq_splitOn, Ne, List.map_eq_nil_iff]
  exact List.splitOn_ne_nil '.' _

theorem pathOf_of_no_dot (written : String) (h : '.' ∉ written.toList) :
    pathOf written = [written] := by
  rw [pathOf, split_eq_splitOn, List.splitOn_eq_singleton h, List.map_singleton,
    String.ofList_toList]

/-- Small letters leave a dot where it is. -/
theorem dot_mem_smallAfter (before cs : List Char) (h : '.' ∈ cs) :
    '.' ∈ Text.smallAfter before cs := by
  induction cs generalizing before with
  | nil => exact absurd h List.not_mem_nil
  | cons c cs ih =>
    rw [Text.smallAfter, List.mem_append]
    rcases List.mem_cons.mp h with hc | hcs
    · left
      rw [← hc]
      exact List.mem_singleton.mpr rfl
    · right
      exact ih (c :: before) hcs

/-- A name with a dot in it is none of the common ones, whatever the case of its letters. -/
theorem named?_of_dot (name : String) (h : '.' ∈ name.toList) : Common.named? name = none := by
  have hsmall : '.' ∈ (Text.small name).toList := by
    rw [Text.small, String.toList_ofList]
    exact dot_mem_smallAfter [] name.toList h
  unfold Common.named?
  split
  case h_6 => rfl
  all_goals
    next hname =>
      rw [hname] at hsmall
      exact absurd hsmall (by decide)

theorem common?_append (front back : List String) (hfront : front ≠ []) (hback : back ≠ []) :
    common? (front ++ back) = none := by
  obtain ⟨a, as, rfl⟩ := List.exists_cons_of_ne_nil hfront
  obtain ⟨b, bs, rfl⟩ := List.exists_cons_of_ne_nil hback
  cases as with
  | nil => rfl
  | cons c as => rfl

/-- Whether an attribute is a common one may be told before or after it is cut at its dots. -/
theorem common?_pathOf (written : String) : common? (pathOf written) = Common.named? written := by
  by_cases hdot : '.' ∈ written.toList
  · obtain ⟨front, back, hcut⟩ := List.append_of_mem hdot
    have hwritten : written = String.ofList front ++ "." ++ String.ofList back := by
      apply String.toList_inj.mp
      simpa using hcut
    rw [named?_of_dot written hdot, hwritten, pathOf_dotted]
    exact common?_append _ _ (pathOf_ne_nil _) (pathOf_ne_nil _)
  · rw [pathOf_of_no_dot written hdot]
    rfl

theorem attributeValue_of_uncommon (source : List UInt8) (e : Entry) (written : String)
    (h : Common.named? written = none) :
    attributeValue source e (pathOf written) = pathText source e.node (pathOf written) := by
  rw [attributeValue, common?_pathOf, h]

end Dots

/-- The attribute in front of a dot leads to the node that is asked for the attribute behind the dot, the
text of a leaf included, and there is no value if it leads nowhere. The attribute behind the dot may not
be a common one, which no field holds; with a dot in it, the whole never is. -/
theorem value_of_dotted (source : List UInt8) (e : Entry) (front back : String)
    (hback : Common.named? back = none) :
    Common.named? (front ++ "." ++ back) = none ∧
    (∀ m : Entry, Leads e.node (pathOf front) m.node →
      attributeValue source e (pathOf (front ++ "." ++ back)) =
        attributeValue source m (pathOf back)) ∧
    ((∀ m, ¬ Leads e.node (pathOf front) m) →
      attributeValue source e (pathOf (front ++ "." ++ back)) = none) := by
  have hdot : '.' ∈ (front ++ "." ++ back).toList := by simp
  have hwhole := named?_of_dot (front ++ "." ++ back) hdot
  have hpath := attributeValue_of_uncommon source e (front ++ "." ++ back) hwhole
  rw [pathOf_dotted] at hpath
  refine ⟨hwhole, ?_, ?_⟩
  · intro m hm
    rw [pathOf_dotted, hpath, attributeValue_of_uncommon source m back hback]
    exact pathText_append source e.node m.node (pathOf front) (pathOf back) hm
  · intro hnone
    rw [pathOf_dotted, hpath]
    exact pathText_append_none source e.node (pathOf front) (pathOf back) (pathOf_ne_nil back) hnone

/-- The label of a node that is seen and stands on the first line. -/
def filling (field : Option String) (type : String) (start stop : Nat) : Label :=
  ⟨type, start, stop, ⟨0, start⟩, ⟨0, stop⟩, field, true, false, false, false⟩

/-- The object `a` of the call `a.b(1)`. -/
def calledObject : Node :=
  ⟨filling (some "object") "identifier" 0 1, []⟩

/-- The tree of `a.b(1)`. -/
def callTree : Node :=
  ⟨filling none "call_expression" 0 6, [
    ⟨filling (some "function") "member_expression" 0 3, [
      calledObject,
      ⟨filling (some "property") "property_identifier" 2 3, []⟩]⟩,
    ⟨filling (some "arguments") "arguments" 3 6, [⟨filling none "number" 4 5, []⟩]⟩]⟩

theorem value_callTree :
    let source := Text.Utf8.encode "a.b(1)".toList
    let call : Entry := ⟨0, callTree, ⟨none, 0, none, 0, 1⟩⟩
    let object : Entry := ⟨2, calledObject, ⟨some 1, 2, some "object", 0, 2⟩⟩
    Common.named? "name" = none ∧ Leads call.node (pathOf "callee.object") object.node ∧
    attributeValue source call (pathOf ("callee.object" ++ "." ++ "name")) =
      attributeValue source object (pathOf "name") ∧
    attributeValue source object (pathOf "name") = some "a" ∧
    (∀ m, ¬ Leads call.node (pathOf "callee.object.name") m) ∧
    attributeValue source call (pathOf ("callee.object.name" ++ "." ++ "name")) = none := by
  intro source call object
  have hplain : Common.named? "name" = none := by decide +kernel
  have hleads : Leads call.node (pathOf "callee.object") object.node := by
    rw [leads_iff]
    rfl
  have hnowhere : ∀ m, ¬ Leads call.node (pathOf "callee.object.name") m := by
    intro m hm
    have hnone : ((pathOf "callee.object.name").foldlM follow? call.node).isNone = true := by
      decide +kernel
    rw [leads_iff, Option.isNone_iff_eq_none.mp hnone] at hm
    exact absurd hm nofun
  obtain ⟨-, hreached, -⟩ := value_of_dotted source call "callee.object" "name" hplain
  obtain ⟨-, -, hlost⟩ := value_of_dotted source call "callee.object.name" "name" hplain
  exact ⟨hplain, hleads, hreached object hleads, by decide +kernel, hnowhere, hlost hnowhere⟩

end TreeSelect.Matching

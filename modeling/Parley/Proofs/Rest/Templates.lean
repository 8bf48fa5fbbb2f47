import Mathlib.Data.List.TakeWhile
import Parley.Rest.Request

/-! Paths out of templates. A template is the text around its pairs of braces, and a path is the
same text around the parameters; the major parameter is the one that stands in the second segment of
the path. -/
namespace Parley.Rest.Route

def braces : List Char := ['\x7b', '\x7d']

/-- The first pair of braces in a text stands between two parts of it. -/
structure FirstBraces (text before after : List Char) : Prop where
  text_eq : text = before ++ braces ++ after
  leftmost : ∀ before' after', text = before' ++ braces ++ after' → before.length ≤ before'.length

/-- Cuts a text at its pairs of braces, from the left. -/
inductive Cuts : List Char → List (List Char) → Prop where
  | whole {text : List Char} (none : ¬ braces <:+: text) : Cuts text [text]
  | first {text before after : List Char} {pieces : List (List Char)}
      (first : FirstBraces text before after) (later : Cuts after pieces) :
      Cuts text (before :: pieces)

/-- What a path has for a pair of braces, by the number of pairs before it. -/
def filling (params : List String) (i : Nat) : List Char :=
  (params[i]?.map String.toList).getD braces

def fill (params : List String) : List (List Char) → List Char
  | [] => []
  | piece :: later => piece ++ (later.mapIdx fun i piece => filling params i ++ piece).flatten

/-- After its leading slashes the template begins with a major resource, and its second segment is a
pair of braces. -/
def NamesMajor (template : List Char) : Prop :=
  ∃ resource ∈ majorResources, ∃ later,
    (template.dropWhile (· == '/')).splitOn '/' = resource.toList :: braces :: later

namespace FirstBraces
variable {text before after before' after' : List Char} {c : Char}

theorem unique (h : FirstBraces text before after) (h' : FirstBraces text before' after') :
    before = before' ∧ after = after' := by
  have hlen : before.length = before'.length :=
    Nat.le_antisymm (h.leftmost _ _ h'.text_eq) (h'.leftmost _ _ h.text_eq)
  have heq := h.text_eq.symm.trans h'.text_eq
  rw [List.append_assoc, List.append_assoc] at heq
  obtain ⟨hbefore, hrest⟩ := List.append_inj heq hlen
  exact ⟨hbefore, List.append_cancel_left hrest⟩

theorem braces_infix (h : FirstBraces text before after) : braces <:+: text :=
  ⟨before, after, h.text_eq.symm⟩

theorem head (after : List Char) : FirstBraces (braces ++ after) [] after :=
  ⟨rfl, fun _ _ _ => Nat.zero_le _⟩

theorem cons (h : FirstBraces text before after) (hc : ¬ braces <+: c :: text) :
    FirstBraces (c :: text) (c :: before) after := by
  refine ⟨congrArg (c :: ·) h.text_eq, fun before' after' heq => ?_⟩
  cases before' with
  | nil => exact absurd ⟨after', heq.symm⟩ hc
  | cons d before' => exact Nat.succ_le_succ (h.leftmost before' after' (List.cons.inj heq).2)

end FirstBraces

namespace Cuts
variable {text piece : List Char} {pieces pieces' : List (List Char)} {c : Char}

theorem unique (h : Cuts text pieces) (h' : Cuts text pieces') : pieces = pieces' := by
  induction h generalizing pieces' with
  | whole hnone =>
    cases h' with
    | whole => rfl
    | first hfirst => exact absurd hfirst.braces_infix hnone
  | first hfirst hlater ih =>
    cases h' with
    | whole hnone => exact absurd hfirst.braces_infix hnone
    | first hfirst' hlater' =>
      obtain ⟨rfl, rfl⟩ := hfirst.unique hfirst'
      rw [ih hlater']

theorem cons (h : Cuts text (piece :: pieces)) (hc : ¬ braces <+: c :: text) :
    Cuts (c :: text) ((c :: piece) :: pieces) := by
  cases h with
  | whole hnone =>
    refine .whole fun hb => ?_
    exact (List.infix_cons_iff.mp hb).elim hc hnone
  | first hfirst hlater => exact .first (hfirst.cons hc) hlater

end Cuts

theorem expand_braces (rest : List Char) (params : List String) :
    expand (braces ++ rest) params = filling params 0 ++ expand rest params.tail := by
  cases params with
  | nil => rfl
  | cons p params => rfl

theorem expand_cons {c : Char} {rest : List Char} (h : ¬ braces <+: c :: rest)
    (params : List String) : expand (c :: rest) params = c :: expand rest params := by
  have hb (rest' : List Char) (hc : c = '\x7b') (hr : rest = '\x7d' :: rest') : False := by
    subst hc hr
    exact h ⟨rest', rfl⟩
  exact expand.eq_3 params c rest (fun rest' _ _ _ => hb rest') (fun rest' _ => hb rest')

theorem filling_succ (params : List String) (i : Nat) :
    filling params (i + 1) = filling params.tail i := by
  rw [filling, filling, List.getElem?_tail]

/-- A text can be cut, and its expansion has the fillings at the cuts. -/
theorem exists_cuts (template : List Char) (params : List String) :
    ∃ piece later, Cuts template (piece :: later) ∧
      expand template params = fill params (piece :: later) := by
  induction hlen : template.length using Nat.strongRecOn generalizing template params with
  | ind n ih =>
    by_cases hb : braces <+: template
    · obtain ⟨rest, rfl⟩ := hb
      have hlt : rest.length < n := by
        rw [← hlen, List.length_append]
        exact Nat.lt_add_of_pos_left (by decide)
      obtain ⟨piece, later, hcuts, heq⟩ := ih rest.length hlt rest params.tail rfl
      refine ⟨[], piece :: later, .first (.head rest) hcuts, ?_⟩
      rw [expand_braces, heq, fill, fill, List.mapIdx_cons]
      simp [filling_succ]
    · cases template with
      | nil => exact ⟨[], [], .whole (by decide), by cases params <;> rfl⟩
      | cons c rest =>
        have hlt : rest.length < n := hlen ▸ Nat.lt_succ_self rest.length
        obtain ⟨piece, later, hcuts, heq⟩ := ih rest.length hlt rest params rfl
        exact ⟨c :: piece, later, hcuts.cons hb, by rw [expand_cons hb, heq]; rfl⟩

/-- Parameters without a pair of braces of their own count for nothing. -/
theorem fill_take (params : List String) (piece : List Char) (later : List (List Char)) :
    fill (params.take later.length) (piece :: later) = fill params (piece :: later) := by
  rw [fill, fill]
  congr 2
  rw [List.mapIdx_eq_mapIdx_iff]
  intro i hi
  rw [filling, filling, List.getElem?_take_of_lt hi]

theorem splitOn_slash (cs : List Char) :
    cs.splitOn '/' = (splitSlash cs).1 :: ((splitSlash cs).2.map (·.splitOn '/')).getD [] := by
  induction cs with
  | nil => rfl
  | cons c cs ih =>
    rw [List.splitOn_eq_splitOnP, List.splitOnP_cons_eq_if_modifyHead, ← List.splitOn_eq_splitOnP,
      splitSlash]
    by_cases hc : c = '/'
    · simp [hc]
    · rw [ih]
      simp [hc]

theorem majorOf_eq_some_iff (template : List Char) (params : List String) (p : String) :
    majorOf template params = some p ↔ params.head? = some p ∧ NamesMajor template := by
  unfold NamesMajor majorOf
  rw [splitOn_slash]
  obtain ⟨resource, rest⟩ := splitSlash (template.dropWhile (· == '/'))
  cases rest with
  | none => simp
  | some rest =>
    have hnames : (∃ r ∈ majorResources, ∃ later,
        resource :: rest.splitOn '/' = r.toList :: braces :: later) ↔
          (splitSlash rest).1 = braces ∧ String.ofList resource ∈ majorResources := by
      rw [splitOn_slash]
      constructor
      · rintro ⟨r, hr, later, heq⟩
        obtain ⟨rfl, htail⟩ := List.cons.inj heq
        exact ⟨(List.cons.inj htail).1, by rwa [String.ofList_toList]⟩
      · rintro ⟨hsegment, hr⟩
        exact ⟨String.ofList resource, hr, _, by rw [String.toList_ofList, hsegment]⟩
    dsimp only
    rw [Option.map_some, Option.getD_some, hnames]
    split
    · next h => exact (and_iff_left h).symm
    · next h => exact iff_of_false (by simp) fun hp => h hp.2

theorem expand_append {text : List Char} (h : '\x7b' ∉ text) (rest : List Char)
    (params : List String) : expand (text ++ rest) params = text ++ expand rest params := by
  induction text with
  | nil => rfl
  | cons c text ih =>
    rw [List.mem_cons, not_or] at h
    have hc : ¬ braces <+: c :: (text ++ rest) := fun hb => h.1 (List.cons_prefix_cons.mp hb).1
    rw [List.cons_append, expand_cons hc, ih h.2, List.cons_append]

theorem NamesMajor.template_eq {template : List Char} (h : NamesMajor template) :
    ∃ slashes, ∃ resource ∈ majorResources, ∃ tail, (∀ c ∈ slashes, c = '/') ∧
      template = slashes ++ resource.toList ++ ['/'] ++ (braces ++ tail) := by
  obtain ⟨resource, hr, later, hsplit⟩ := h
  obtain ⟨tail, htail⟩ : ∃ tail, ['/'].intercalate (braces :: later) = braces ++ tail := by
    cases later with
    | nil => exact ⟨[], rfl⟩
    | cons piece later =>
      exact ⟨_, List.intercalate_cons_cons.trans (List.append_assoc ..)⟩
  refine ⟨template.takeWhile (· == '/'), resource, hr, tail, fun c hc => ?_, ?_⟩
  · simpa using List.mem_takeWhile_imp hc
  · have hbody : template.dropWhile (· == '/') = resource.toList ++ ['/'] ++ (braces ++ tail) :=
      calc template.dropWhile (· == '/')
          = ['/'].intercalate ((template.dropWhile (· == '/')).splitOn '/') :=
            (List.intercalate_splitOn '/').symm
        _ = resource.toList ++ ['/'] ++ (braces ++ tail) := by
            rw [hsplit, List.intercalate_cons_cons, htail]
    calc template = template.takeWhile (· == '/') ++ template.dropWhile (· == '/') :=
          List.takeWhile_append_dropWhile.symm
      _ = template.takeWhile (· == '/') ++ resource.toList ++ ['/'] ++ (braces ++ tail) := by
          rw [hbody]
          simp only [List.append_assoc]

/-- In a path, the major parameter is the segment behind the major resource. -/
theorem expand_of_namesMajor {template : List Char} (h : NamesMajor template) (p : String)
    (params : List String) :
    ∃ slashes, ∃ resource ∈ majorResources, ∃ tail, (∀ c ∈ slashes, c = '/') ∧
      expand template (p :: params) = slashes ++ resource.toList ++ '/' :: p.toList ++ tail := by
  obtain ⟨slashes, resource, hr, tail, hslash, rfl⟩ := h.template_eq
  have hplain : '\x7b' ∉ slashes ++ resource.toList ++ ['/'] := by
    have hname : ∀ r ∈ majorResources, '\x7b' ∉ r.toList := by decide
    simp only [List.mem_append, List.mem_singleton, not_or]
    exact ⟨⟨fun hc => absurd (hslash _ hc) (by decide), hname resource hr⟩, by decide⟩
  refine ⟨slashes, resource, hr, expand tail params, hslash, ?_⟩
  rw [expand_append hplain, expand_braces]
  simp [filling]

/-- There is one way to cut a template at its pairs of braces, and the path has the parameters there
in their order, and the braces where there are no more of them; further parameters change nothing.
The major parameter is the first one, if the template names a major resource, and then stands in the
path behind it. So requests of one method and template, and with the same first parameter, share a
limit. -/
theorem path_fills_template (template : String) (params : List String) :
    let route := create template params
    (∃ piece later, (∀ pieces, Cuts template.toList pieces ↔ pieces = piece :: later) ∧
      route.path.toList =
        piece ++ (later.mapIdx fun i piece => filling params i ++ piece).flatten ∧
      (create template (params.take later.length)).path = route.path) ∧
    (∀ p, route.major = some p ↔ params.head? = some p ∧ NamesMajor template.toList) ∧
    (∀ p, route.major = some p →
      ∃ slashes, ∃ resource ∈ majorResources, ∃ tail, (∀ c ∈ slashes, c = '/') ∧
        route.path.toList = slashes ++ resource.toList ++ '/' :: p.toList ++ tail) ∧
    ∀ (method : Method) (first : String) (later later' : List String) (body body' : Option Json)
      (options options' : Options),
      BucketKey.ofRequest ⟨method, create template (first :: later), body, options⟩ =
        BucketKey.ofRequest ⟨method, create template (first :: later'), body', options'⟩ := by
  intro route
  have hpath (params : List String) :
      (create template params).path.toList = expand template.toList params := String.toList_ofList
  have hmajor := majorOf_eq_some_iff template.toList params
  obtain ⟨piece, later, hcuts, heq⟩ := exists_cuts template.toList params
  refine ⟨⟨piece, later, fun pieces => ⟨fun h => h.unique hcuts, fun h => h ▸ hcuts⟩,
    (hpath params).trans heq, ?_⟩, hmajor, fun p hp => ?_, ?_⟩
  · obtain ⟨piece', later', hcuts', heq'⟩ := exists_cuts template.toList (params.take later.length)
    obtain ⟨rfl, rfl⟩ := List.cons.inj (hcuts'.unique hcuts)
    rw [fill_take] at heq'
    exact congrArg String.ofList (heq'.trans heq.symm)
  · obtain ⟨hfirst, hnames⟩ := (hmajor p).mp hp
    obtain ⟨params, rfl⟩ := List.head?_eq_some_iff.mp hfirst
    rw [hpath]
    exact expand_of_namesMajor hnames p params
  · intro method first later later' body body' options options'
    rfl

/-- Braces in a parameter are text. -/
example : (create "/channels/\x7b\x7d/pins/\x7b\x7d" ["\x7b\x7d", "7"]).path =
    "/channels/\x7b\x7d/pins/7" := by decide +kernel

end Parley.Rest.Route

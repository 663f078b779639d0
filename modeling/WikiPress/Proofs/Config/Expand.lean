import Mathlib.Data.List.Chain
import WikiPress.Config.Expand

/-!
# WikiPress.Proofs.Config.Expand

When only braces refer to variables in a setting.

By the documented rule `${NAME}` and `${NAME:-text}` are replaced and everything else is kept.
What expands a setting with `${` in it knows two more forms, `$NAME` and `$$`, so that a setting is
expanded by the rule exactly if neither form occurs in what the rule keeps.

Design points:

* The rule cuts a text in one way only (`CutAtBraces`, `exists_cutAtBraces`,
  `CutAtBraces.unique`). What is compared with it is the value of the parts that `piecesFrom` cuts
  the text into.
* Both cuts take the same steps up to a dollar sign that is kept, so all there is to compare is
  what can come after it (`AfterDollar`).
* Where the cuts part, no later text brings them together: with one letter as the value of every
  variable, a dollar sign too many in front stays one (`shown_ne_dollars`).
-/

namespace WikiPress.Config

variable {text inside inner rest more : List Char} {pieces : List Piece} {c : Char}

/-! ## The documented rule -/

/-- Whether a text starts with a reference in braces. -/
def StartsReference (text : List Char) : Prop :=
  ∃ inside after, text = '$' :: '\x7b' :: (inside ++ '\x7d' :: after)

/-- How a text is cut if only braces refer to variables: `${`, what is in front of the first
closing brace, and that brace are a reference, and every other character stands for itself. -/
inductive CutAtBraces : List Char → List Piece → Prop
  | nil : CutAtBraces [] []
  | reference {inside rest : List Char} {pieces : List Piece} (hinside : '\x7d' ∉ inside)
      (hrest : CutAtBraces rest pieces) :
      CutAtBraces ('$' :: '\x7b' :: (inside ++ '\x7d' :: rest))
        (.reference (referenceOf inside) :: pieces)
  | character {c : Char} {rest : List Char} {pieces : List Piece}
      (hplain : ¬ StartsReference (c :: rest)) (hrest : CutAtBraces rest pieces) :
      CutAtBraces (c :: rest) (.text [c] :: pieces)

theorem untilBrace_append (hinside : '\x7d' ∉ inside) (rest : List Char) :
    untilBrace (inside ++ '\x7d' :: rest) = some inside := by
  induction inside with
  | nil => rfl
  | cons c inside ih =>
      simp only [List.mem_cons, not_or] at hinside
      rw [List.cons_append, untilBrace, ih hinside.2]
      · rfl
      · exact fun h => hinside.1 h.symm

theorem untilBrace_eq_none (hinner : '\x7d' ∉ inner) : untilBrace inner = none := by
  induction inner with
  | nil => rfl
  | cons c inner ih =>
      simp only [List.mem_cons, not_or] at hinner
      rw [untilBrace, ih hinner.2]
      · rfl
      · exact fun h => hinner.1 h.symm

/-- The rule cuts every text. -/
theorem exists_cutAtBraces (text : List Char) : ∃ pieces, CutAtBraces text pieces := by
  induction hlength : text.length using Nat.strong_induction_on generalizing text with
  | _ length ih =>
      subst hlength
      cases text with
      | nil => exact ⟨[], .nil⟩
      | cons c rest =>
          by_cases hbraced : StartsReference (c :: rest)
          · obtain ⟨whole, after, heq⟩ := hbraced
            -- the reference ends at the first of the closing braces
            have hmem : '\x7d' ∈ whole ++ '\x7d' :: after := by simp
            obtain ⟨inside, rest', hsplit, hinside⟩ := List.eq_append_cons_of_mem hmem
            have hshorter : rest'.length < (c :: rest).length := by
              rw [heq, hsplit]
              simp only [List.length_cons, List.length_append]
              omega
            obtain ⟨pieces, hpieces⟩ := ih rest'.length hshorter rest' rfl
            rw [heq, hsplit]
            exact ⟨_, .reference hinside hpieces⟩
          · obtain ⟨pieces, hpieces⟩ := ih rest.length (by simp) rest rfl
            exact ⟨_, .character hbraced hpieces⟩

/-- The rule cuts a text in one way only. -/
theorem CutAtBraces.unique {other : List Piece} (h : CutAtBraces text pieces)
    (hother : CutAtBraces text other) : pieces = other := by
  induction h generalizing other with
  | nil => cases hother; rfl
  | @reference inside rest pieces hinside hrest ih =>
      generalize htext : '$' :: '\x7b' :: (inside ++ '\x7d' :: rest) = text at hother
      cases hother with
      | nil => cases htext
      | @reference inside' rest' pieces' hinside' hrest' =>
          simp only [List.cons.injEq, true_and] at htext
          have heq := congrArg untilBrace htext
          rw [untilBrace_append hinside, untilBrace_append hinside', Option.some.injEq] at heq
          subst heq
          have hrests : rest = rest' := by simpa using htext
          subst hrests
          rw [ih hrest']
      | character hplain' => exact absurd ⟨_, _, htext.symm⟩ hplain'
  | @character c rest pieces hplain hrest ih =>
      generalize htext : c :: rest = text at hother
      cases hother with
      | nil => cases htext
      | reference => exact absurd ⟨_, _, htext⟩ hplain
      | character hplain' hrest' =>
          cases htext
          rw [ih hrest']

/-- Two neighbouring parts that can only be meant by the rule: behind a dollar sign that is kept,
there is a kept character that is no dollar sign and cannot be in a name. -/
def Apart (piece next : Piece) : Prop :=
  piece = .text ['$'] → ∃ c, next = .text [c] ∧ c ≠ '$' ∧ isNameChar c = false

/-! ## What comes after a dollar sign -/

/-- What can come after a dollar sign, each with its own meaning. -/
inductive AfterDollar : List Char → Prop
  | reference {inside rest : List Char} (hinside : '\x7d' ∉ inside) :
      AfterDollar ('\x7b' :: (inside ++ '\x7d' :: rest))
  | opened {inner : List Char} (hinner : '\x7d' ∉ inner) : AfterDollar ('\x7b' :: inner)
  | dollar {more : List Char} : AfterDollar ('$' :: more)
  | name {c : Char} {more : List Char} (hname : isNameChar c = true) : AfterDollar (c :: more)
  | alone {rest : List Char}
      (hrest : ∀ c ∈ rest.head?, c ≠ '\x7b' ∧ c ≠ '$' ∧ isNameChar c = false) : AfterDollar rest

theorem afterDollar (rest : List Char) : AfterDollar rest := by
  rcases rest with - | ⟨c, more⟩
  · exact .alone (by simp)
  by_cases hdollar : c = '$'
  · subst hdollar
    exact .dollar
  by_cases hname : isNameChar c = true
  · exact .name hname
  by_cases hbrace : c = '\x7b'
  · subst hbrace
    by_cases hclosed : '\x7d' ∈ more
    · obtain ⟨inside, after, rfl, hinside⟩ := List.eq_append_cons_of_mem hclosed
      exact .reference hinside
    · exact .opened hclosed
  · refine .alone fun d hd => ?_
    obtain rfl : c = d := by simpa using hd
    exact ⟨hbrace, hdollar, by simpa using hname⟩

theorem piecesFrom_eq_drop (skip : Nat) (text : List Char) :
    piecesFrom skip text = piecesFrom 0 (text.drop skip) := by
  induction text generalizing skip with
  | nil => simp [piecesFrom]
  | cons c rest ih =>
      cases skip with
      | zero => rfl
      | succ skip => rw [piecesFrom, ih, List.drop_succ_cons]

theorem piecesFrom_character (hc : c ≠ '$') (rest : List Char) :
    piecesFrom 0 (c :: rest) = .text [c] :: piecesFrom 0 rest := by
  rw [piecesFrom.eq_def]
  exact if_pos hc

theorem piecesFrom_reference (hinside : '\x7d' ∉ inside) (rest : List Char) :
    piecesFrom 0 ('$' :: '\x7b' :: (inside ++ '\x7d' :: rest)) =
      .reference (referenceOf inside) :: piecesFrom 0 rest := by
  rw [piecesFrom, if_neg (by simp)]
  simp only [untilBrace_append hinside]
  rw [piecesFrom_eq_drop]
  simp

theorem piecesFrom_opened (hinner : '\x7d' ∉ inner) :
    piecesFrom 0 ('$' :: '\x7b' :: inner) = .text ['$', '\x7b'] :: piecesFrom 0 inner := by
  rw [piecesFrom, if_neg (by simp)]
  simp only [untilBrace_eq_none hinner]
  rw [piecesFrom_eq_drop]
  rfl

theorem piecesFrom_dollar (more : List Char) :
    piecesFrom 0 ('$' :: '$' :: more) = .text ['$'] :: piecesFrom 0 more := by
  rw [piecesFrom, if_neg (by simp), piecesFrom_eq_drop]
  rfl

theorem isNameChar_false {c : Char} (hc : c = '\x7b' ∨ c = '$') : isNameChar c = false := by
  rcases hc with rfl | rfl <;> decide +kernel

/-- A name behind a dollar sign refers to a variable. -/
theorem piecesFrom_name (hname : isNameChar c = true) (more : List Char) :
    ∃ r rest, piecesFrom 0 ('$' :: c :: more) = .reference r :: rest := by
  have hbrace : c ≠ '\x7b' := fun h => by simp [isNameChar_false (Or.inl h)] at hname
  have hdollar : c ≠ '$' := fun h => by simp [isNameChar_false (Or.inr h)] at hname
  rw [piecesFrom, if_neg (by simp)]
  · simp [hname]
  · exact fun _ heq => hbrace (List.cons.inj heq).1
  · exact fun _ heq => hdollar (List.cons.inj heq).1

theorem piecesFrom_alone
    (hrest : ∀ c ∈ rest.head?, c ≠ '\x7b' ∧ c ≠ '$' ∧ isNameChar c = false) :
    piecesFrom 0 ('$' :: rest) = .text ['$'] :: piecesFrom 0 rest := by
  rw [piecesFrom, if_neg (by simp)]
  · have hname : (rest.takeWhile isNameChar).isEmpty = true := by
      cases rest with
      | nil => rfl
      | cons c more => simp [(hrest c rfl).2.2]
    simp only [hname, if_true]
  · rintro _ rfl
    exact absurd rfl (hrest '\x7b' rfl).1
  · rintro _ rfl
    exact absurd rfl (hrest '$' rfl).2.1

/-! ## Where nothing but the rule is meant -/

/-- Whether a dollar sign in front of a text can only be meant by the rule is said by the first
character of the text. -/
theorem CutAtBraces.apart_head (h : CutAtBraces rest pieces) :
    (∀ next ∈ pieces.head?, Apart (.text ['$']) next) ↔
      ∀ c ∈ rest.head?, c ≠ '$' ∧ isNameChar c = false := by
  cases h with
  | nil => simp
  | reference => simp [Apart]
  | character => simp [Apart]

/-- Characters that stand for themselves are in front of the value of the other parts. -/
theorem valueOfPieces_text (env : String → Option String) (cs : List Char) (pieces : List Piece) :
    valueOfPieces env (.text cs :: pieces) = (cs ++ ·) <$> valueOfPieces env pieces := rfl

/-- A text has the value of the parts that the rule cuts it into, if these are apart. -/
theorem valueOfPieces_piecesFrom (env : String → Option String) (h : CutAtBraces text pieces)
    (hapart : pieces.IsChain Apart) :
    valueOfPieces env (piecesFrom 0 text) = valueOfPieces env pieces := by
  induction h with
  | nil => rfl
  | reference hinside hrest ih =>
      rw [piecesFrom_reference hinside, valueOfPieces, valueOfPieces, ih hapart.tail]
  | @character c rest pieces hplain hrest ih =>
      have htail := ih hapart.tail
      by_cases hc : c = '$'
      · subst hc
        have hnext := hrest.apart_head.1 (List.isChain_cons.1 hapart).1
        cases afterDollar rest with
        | reference hinside => exact absurd ⟨_, _, rfl⟩ hplain
        | opened hinner =>
            rw [piecesFrom_character (by decide)] at htail
            rw [piecesFrom_opened hinner, valueOfPieces_text, valueOfPieces_text, ← htail,
              valueOfPieces_text, Functor.map_map]
            rfl
        | dollar => exact absurd rfl (hnext '$' rfl).1
        | name hname => simp [hname] at hnext
        | alone halone =>
            rw [piecesFrom_alone halone, valueOfPieces_text, valueOfPieces_text, htail]
      · rw [piecesFrom_character hc, valueOfPieces_text, valueOfPieces_text, htail]

/-! ## Where more than the rule is meant -/

/-- What parts stand for if every variable has the value `x`. -/
def shown (pieces : List Piece) : List Char :=
  pieces.flatMap fun
    | .text cs => cs
    | .reference _ => ['x']

@[simp] theorem shown_text (cs : List Char) (pieces : List Piece) :
    shown (.text cs :: pieces) = cs ++ shown pieces := rfl

@[simp] theorem shown_reference (r : Reference) (pieces : List Piece) :
    shown (.reference r :: pieces) = 'x' :: shown pieces := rfl

theorem valueOfPieces_shown (pieces : List Piece) :
    valueOfPieces (fun _ => some "x") pieces = .ok (shown pieces) := by
  induction pieces with
  | nil => rfl
  | cons piece pieces ih =>
      rw [valueOfPieces, ih]
      cases piece <;> rfl

/-- What is written for a text does not differ by dollar signs in front from what is written for
the parts that the rule cuts it into. -/
theorem shown_ne_dollars (h : CutAtBraces text pieces) (dollars : Nat) :
    shown (piecesFrom 0 text) ≠ List.replicate (dollars + 1) '$' ++ shown pieces := by
  induction hlength : text.length using Nat.strong_induction_on
    generalizing text pieces dollars with
  | _ length ih =>
      subst hlength
      have hmove : ∀ (k : Nat) (cs : List Char),
          List.replicate k '$' ++ '$' :: cs = List.replicate (k + 1) '$' ++ cs := by
        simp [List.replicate_succ']
      cases h with
      | nil => simp [piecesFrom, shown]
      | reference hinside hrest => simp [piecesFrom_reference hinside, List.replicate_succ]
      | @character c rest pieces hplain hrest =>
          by_cases hc : c = '$'
          · subst hc
            rw [shown_text, List.singleton_append, hmove]
            cases afterDollar rest with
            | reference hinside => exact absurd ⟨_, _, rfl⟩ hplain
            | opened hinner => simp [piecesFrom_opened hinner, List.replicate_succ]
            | @dollar more =>
                rw [piecesFrom_dollar, shown_text]
                cases hrest with
                | reference => simp [piecesFrom_character, List.replicate_succ]
                | character _ hmore =>
                    have hshorter : more.length < ('$' :: '$' :: more).length := by
                      simp only [List.length_cons]
                      omega
                    have hne := ih more.length hshorter hmore (dollars + 1) rfl
                    simpa [hmove, List.replicate_succ] using hne
            | @name c more hname =>
                obtain ⟨r, parts, hparts⟩ := piecesFrom_name hname more
                simp [hparts, List.replicate_succ]
            | alone halone =>
                have hne := ih rest.length (by simp) hrest dollars rfl
                simpa [piecesFrom_alone halone, List.replicate_succ] using hne
          · simp [piecesFrom_character hc, List.replicate_succ, hc]

/-- The parts that the rule cuts a text into are apart if the text is written like them. -/
theorem isChain_of_shown (h : CutAtBraces text pieces)
    (heq : shown (piecesFrom 0 text) = shown pieces) : pieces.IsChain Apart := by
  induction h with
  | nil => exact .nil
  | reference hinside hrest ih =>
      rw [piecesFrom_reference hinside, shown_reference, shown_reference,
        List.cons_inj_right] at heq
      exact List.isChain_cons.2 ⟨fun _ _ hdollar => by simp at hdollar, ih heq⟩
  | @character c rest pieces hplain hrest ih =>
      by_cases hc : c = '$'
      · subst hc
        rw [List.isChain_cons, hrest.apart_head]
        cases afterDollar rest with
        | reference hinside => exact absurd ⟨_, _, rfl⟩ hplain
        | @opened inner hinner =>
            have hopened : shown (piecesFrom 0 ('\x7b' :: inner)) = shown pieces := by
              rw [piecesFrom_character (by decide)]
              simpa [piecesFrom_opened hinner] using heq
            refine ⟨fun c hc => ?_, ih hopened⟩
            obtain rfl : '\x7b' = c := by simpa using hc
            exact ⟨by decide, isNameChar_false (Or.inl rfl)⟩
        | @dollar more =>
            exfalso
            rw [piecesFrom_dollar, shown_text, shown_text, List.append_cancel_left_eq] at heq
            cases hrest with
            | reference => simp [piecesFrom_character] at heq
            | character _ hmore => exact shown_ne_dollars hmore 0 (by simpa using heq)
        | @name c more hname =>
            obtain ⟨r, parts, hparts⟩ := piecesFrom_name hname more
            simp [hparts] at heq
        | alone halone =>
            rw [piecesFrom_alone halone, shown_text, shown_text, List.append_cancel_left_eq] at heq
            exact ⟨fun c hc => (halone c hc).2, ih heq⟩
      · rw [piecesFrom_character hc, shown_text, shown_text, List.append_cancel_left_eq] at heq
        exact List.isChain_cons.2 ⟨fun _ _ hdollar => by simp [hc] at hdollar, ih heq⟩

/-! ## Settings -/

/-- Without `${` in a text, the rule keeps every character. -/
theorem cutAtBraces_of_noReference (h : hasReference text = false) :
    CutAtBraces text (text.map (.text [·])) := by
  induction text with
  | nil => exact .nil
  | cons c rest ih =>
      refine .character ?_ (ih ?_)
      · rintro ⟨inside, after, heq⟩
        rw [heq] at h
        simp [hasReference] at h
      · unfold hasReference at h
        split at h
        · cases h
        · next heq => cases heq; exact h
        · next heq => cases heq

theorem valueOfPieces_characters (env : String → Option String) (text : List Char) :
    valueOfPieces env (text.map (.text [·])) = .ok text := by
  induction text with
  | nil => rfl
  | cons c rest ih => rw [List.map_cons, valueOfPieces_text, ih]; rfl

/-- **A setting is expanded by the rule where nothing but the rule is meant.** The documented rule
cuts a setting in one way. In every environment the expanded setting is what the parts stand for,
or the failure is that of the first reference among them that has no value, if and only if the
setting has no `${` or each dollar sign that is kept is at its end or has a kept character behind
it that is no dollar sign and cannot be in a name. -/
theorem expand_eq_iff (setting : String) :
    ∃ pieces, (∀ other, CutAtBraces setting.toList other ↔ other = pieces) ∧
      ((∀ env, expand env setting = String.ofList <$> valueOfPieces env pieces) ↔
        (hasReference setting.toList = true → pieces.IsChain Apart)) := by
  obtain ⟨pieces, hcut⟩ := exists_cutAtBraces setting.toList
  refine ⟨pieces, fun other => ⟨fun hother => hother.unique hcut, fun h => h ▸ hcut⟩, ?_⟩
  cases hreference : hasReference setting.toList with
  | false =>
      obtain rfl := hcut.unique (cutAtBraces_of_noReference hreference)
      refine iff_of_true (fun env => ?_) (by simp)
      rw [expand, Config.pieces, hreference, valueOfPieces_characters]
      simp [valueOfPieces_text, valueOfPieces]
  | true =>
      have hpieces : Config.pieces setting = piecesFrom 0 setting.toList := by
        rw [Config.pieces, if_pos hreference]
      simp only [forall_const]
      constructor
      · intro h
        have hx := h fun _ => some "x"
        rw [expand, hpieces, valueOfPieces_shown, valueOfPieces_shown] at hx
        exact isChain_of_shown hcut (String.ofList_injective (Except.ok.inj hx))
      · intro hapart env
        rw [expand, hpieces, valueOfPieces_piecesFrom env hcut hapart]

/-- `$B` is kept by itself, and replaced behind `${A}`. -/
example : expand (fun name => [("A", "alpha"), ("B", "beta")].lookup name) "$B" = .ok "$B" ∧
    expand (fun name => [("A", "alpha"), ("B", "beta")].lookup name) "$\x7bA\x7d $B" =
      .ok "alpha beta" := by
  decide +kernel

end WikiPress.Config

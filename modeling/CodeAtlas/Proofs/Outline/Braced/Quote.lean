import CodeAtlas.Proofs.Outline.Braced.Run
import CodeAtlas.Proofs.Text.Stop

/-! # Declarations in front of a quote

What a line of code declares is read off its front, and no pattern of a declaration gets past a
quotation mark. So nothing behind the first literal of a line changes what the line declares, apart
from the text that is shown for it.
-/
namespace CodeAtlas.Outline.Braced
open Text

section Names
variable {quote : Char} (hquote : isQuote quote = true)
include hquote

theorem isQuote_cases : quote = '\'' ∨ quote = '"' ∨ quote = '\x60' := by
  simpa [isQuote, or_assoc] using hquote

theorem isBlank_of_isQuote : isBlank quote = false := by
  rcases isQuote_cases hquote with rfl | rfl | rfl <;> decide

theorem isWordChar_of_isQuote : isWordChar quote = false := by
  rcases isQuote_cases hquote with rfl | rfl | rfl <;> decide

theorem not_mem_of_isQuote {text : List Char} (h : text.any isQuote = false) : quote ∉ text := by
  intro hmem
  simp only [List.any_eq_false] at h
  exact h quote hmem hquote

theorem stops_keyword {head : String} (h : head.toList.any isQuote = false) :
    Stops quote (literal head) :=
  stops_literal (not_mem_of_isQuote hquote h)

theorem keeps_modifiers {modifiers : List String}
    (h : ∀ m ∈ modifiers, m.toList.any isQuote = false) :
    Keeps quote fun text => modifiers.foldl (fun rest m => skipWord m rest) text :=
  keeps_skipWords (isBlank_of_isQuote hquote) fun m hm => not_mem_of_isQuote hquote (h m hm)

theorem blind_name : Blind quote fun text => (word text).bind fun p => some p.1 := by
  simpa [Option.map_eq_bind, Function.comp_def] using blind_word (isWordChar_of_isQuote hquote)

theorem blind_namedAfter {modifiers : List String} {keyword : String}
    (hmodifiers : ∀ m ∈ modifiers, m.toList.any isQuote = false)
    (hkeyword : keyword.toList.any isQuote = false) :
    Blind quote (namedAfter modifiers keyword) := by
  have hliteral := (stops_keyword hquote hkeyword).comp (keeps_modifiers hquote hmodifiers)
  exact ((blind_name hquote).bind (stops_blanks (isBlank_of_isQuote hquote))).bind hliteral

/-- A star and the white space behind it. -/
theorem keeps_star : Keeps quote fun text => trimStart ((literal "*" text).getD text) :=
  (keeps_trimStart (isBlank_of_isQuote hquote)).comp (stops_keyword hquote (by decide)).getD

theorem blind_functionName? : Blind quote functionName? := by
  have hmodifiers : ∀ m ∈ ["export", "default", "async"], m.toList.any isQuote = false := by decide
  have hkeyword : Stops quote (literal "function") := stops_keyword hquote (by decide)
  have hliteral := hkeyword.comp (keeps_modifiers hquote hmodifiers)
  exact ((blind_name hquote).comp ((keeps_star hquote).comp
    (keeps_trimStart (isBlank_of_isQuote hquote)))).bind hliteral

theorem blind_binding : Blind quote fun text => (namedAfter ["export", "declare"] "const" text).or
    ((namedAfter ["export", "declare"] "let" text).or (namedAfter ["export",
      "declare"] "var" text)) := by
  have hmodifiers : ∀ m ∈ ["export", "declare"], m.toList.any isQuote = false := by decide
  have hbinding (keyword : String) (h : keyword.toList.any isQuote = false) :=
    blind_namedAfter hquote hmodifiers h
  intro front rest rest'
  dsimp only
  rw [hbinding "const" (by decide) front rest rest', hbinding "let" (by decide) front rest rest',
    hbinding "var" (by decide) front rest rest']

theorem blind_shapes : ∀ shape ∈ shapes, Blind quote shape.2.1 := by
  simp only [shapes, List.forall_mem_cons]
  refine ⟨blind_functionName? hquote, ?_, ?_, ?_, ?_, blind_binding hquote, by simp⟩
  all_goals exact blind_namedAfter hquote (by decide) (by decide)

theorem blind_topLevel? (line : Nat) :
    Blind quote fun text => (topLevel? text line).map heading := by
  have hshape : ∀ shape ∈ shapes, Blind quote fun text =>
      (shape.2.1 text).map fun name => (String.ofList name, shape.1, (line : Int), "") := by
    intro shape hshape front rest rest'
    dsimp only
    rw [blind_shapes hquote shape hshape front rest rest']
  intro front rest rest'
  have hfound := blind_findSome? hshape front rest rest'
  simpa [topLevel?, List.map_findSome?, Function.comp_def, heading] using hfound

theorem blind_isImport : Blind quote isImport := by
  intro front rest rest'
  have hstart (head : String) (h : head.toList.any isQuote = false) :=
    blind_startsWith (not_mem_of_isQuote hquote h) front rest rest'
  rw [isImport, isImport, hstart "import " (by decide), hstart "import\x7b" (by decide),
    hstart "require(" (by decide)]

theorem blind_isConstructor : Blind quote isConstructor := by
  have hname : Stops quote (literal "constructor") := stops_keyword hquote (by decide)
  have hopen : Stops quote (literal "(") := stops_keyword hquote (by decide)
  exact (hname.bind (hopen.comp (keeps_trimStart (isBlank_of_isQuote hquote)))).isSome

theorem blind_plainMemberName? : Blind quote plainMemberName? := by
  have hhash : Stops quote (literal "#") := stops_keyword hquote (by decide)
  have hbehind : Blind quote fun text => (word ((literal "#" text).getD text)).bind fun p =>
      (trimStart p.2).head?.bind fun c =>
        if c = '<' || c = '(' then some (if startsWith "#" text then '#' ::
          p.1 else p.1) else none := by
    intro front rest rest'
    have hstarts :
        startsWith "#" (front ++ quote :: rest) = startsWith "#" (front ++ quote :: rest') :=
      hhash.isSome front rest rest'
    obtain ⟨left, hleft⟩ := hhash.getD front
    obtain ⟨found, hfound⟩ := exists_word_append (isWordChar_of_isQuote hquote) left
    dsimp only at hleft ⊢
    rw [hleft, hleft, hfound, hfound, hstarts]
    cases found with
    | none => rfl
    | some p => simp [trimStart_append (isBlank_of_isQuote hquote), List.head?_append]
  exact hbehind.comp (keeps_star hquote)

theorem stops_afterModifier? : Stops quote afterModifier? := by
  have hmodifiers : ∀ m ∈ memberModifiers, m.toList.any isQuote = false := by decide
  exact stops_findSome? fun m hm =>
    (stops_keyword hquote (hmodifiers m hm)).bind (stops_blanks (isBlank_of_isQuote hquote))

end Names

theorem length_lt_of_afterModifier? {text rest : List Char} (h : afterModifier? text = some rest) :
    rest.length < text.length := by
  obtain ⟨m, -, hm⟩ := List.exists_of_findSome?_eq_some h
  obtain ⟨behind, hliteral, hblanks⟩ := Option.bind_eq_some_iff.mp hm
  obtain ⟨gap, ⟨hne, -⟩, rfl⟩ := exists_isGap_of_blanks hblanks
  rw [literal, after?_eq_some_iff] at hliteral
  have hpos := List.length_pos_iff.mpr hne
  rw [hliteral, List.length_append, List.length_append]
  omega

theorem memberName?_of_none {count : Nat} {text : List Char} (h : afterModifier? text = none) :
    memberName? count text = plainMemberName? text := by
  cases count <;> simp [memberName?, h]

/-- The number of modifiers is bounded by the length of the text, and so it is by what is in front
of a quote. -/
theorem memberName?_append {quote : Char} (hquote : isQuote quote = true) {count count' : Nat}
    {front : List Char} (hcount : front.length ≤ count) (hcount' : front.length ≤ count')
    (rest rest' : List Char) :
    memberName? count (front ++ quote :: rest) = memberName? count' (front ++ quote :: rest') := by
  induction hlength : front.length using Nat.strong_induction_on
    generalizing front count count' with
  | _ length ih =>
    have hplain := blind_plainMemberName? hquote front rest rest'
    obtain ⟨found, hfound⟩ := stops_afterModifier? hquote front
    cases found with
    | none => rw [memberName?_of_none (hfound rest), memberName?_of_none (hfound rest'), hplain]
    | some left =>
      have hleft : left.length < length := by
        have hlt := length_lt_of_afterModifier? (hfound rest)
        simpa only [List.length_append, Nat.add_lt_add_iff_right, hlength] using hlt
      obtain ⟨n, rfl⟩ : ∃ n, count = n + 1 := ⟨count - 1, by omega⟩
      obtain ⟨n', rfl⟩ : ∃ n', count' = n' + 1 := ⟨count' - 1, by omega⟩
      have hbehind := ih left.length hleft (by omega : left.length ≤ n)
          (by omega : left.length ≤ n') rfl
      simp only [memberName?, hfound, Option.map_some, hbehind, hplain]

section Declarations
variable {quote : Char} (hquote : isQuote quote = true)
include hquote

theorem blind_member? (line : Nat) (owner : String) :
    Blind quote fun text => (member? text line owner).map heading := by
  intro front rest rest'
  have hconstructor := blind_isConstructor hquote front rest rest'
  have hname : memberName? (front ++ quote :: rest).length (front ++ quote :: rest) =
      memberName? (front ++ quote :: rest').length (front ++ quote :: rest') :=
    memberName?_append hquote (by simp) (by simp) rest rest'
  dsimp only
  rw [member?, member?, hconstructor, hname]
  split
  · rfl
  · cases memberName? (front ++ quote :: rest').length (front ++ quote :: rest') with
    | none => rfl
    | some name =>
      simp only [Option.bind_eq_bind, Option.bind_some]
      split <;> rfl

/-- What a line declares is told by what is in front of the first quote. -/
theorem blind_declaration? (st : State) (line : Nat) :
    Blind quote fun text => (declaration? st text line).map heading := by
  intro front rest rest'
  have hmark := blind_startsWith
    (not_mem_of_isQuote hquote (by decide : "@".toList.any isQuote = false)) front rest rest'
  have himport := blind_isImport hquote front rest rest'
  have htop := blind_topLevel? hquote line front rest rest'
  have hmember (owner : String) := blind_member? hquote line owner front rest rest'
  dsimp only at htop hmember ⊢
  rw [declaration?, declaration?, hmark, himport]
  split
  · rfl
  · simp only [Option.map_or]
    congr 1
    · split
      · exact htop
      · rfl
    · split
      · cases st.openClass with
        | none => rfl
        | some owner => exact hmember owner
      · rfl

end Declarations

end CodeAtlas.Outline.Braced

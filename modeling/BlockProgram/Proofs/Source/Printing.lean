import BlockProgram.Proofs.Source.Lines
import BlockProgram.Proofs.Source.Placing

/-
  The text of a program, line by line.

  Each line of the text is a line of some block, after spaces
  for the bodies around it, and a blank line stands between
  blocks that stand under no other.

  Main declarations:
    * `Source.textLines`
    * `Source.Post.printed`
    * `Source.textLines_programText`
    * `Source.compile_isLaidOut`
-/

namespace BlockProgram

namespace Source

------------------------------------------------------------
-- Lines Of A Text
------------------------------------------------------------

/- The lines of a text.  There are none where it is empty. -/
def textLines (text : String) : List (List Char) :=
  if text = "" then [] else rawLines text

/- A line after `width` spaces for each body around it. -/
def Post.printed
    (width : Nat)
    (post : Post) : List Char :=
  List.replicate (width * post.depth) ' ' ++
    post.mark.text.toList

/- The lines of a block that stands under no other. -/
def printedBlock
    (width : Nat)
    (b : Block) : List (List Char) :=
  (posts 0 false b).map (Post.printed width)

/- The lines of a block are its rows. -/
theorem printedBlock_eq (width : Nat) :
    printedBlock width =
      fun b => (layout 0 false b).map (Row.raw width) := by
  funext b
  rw [← map_row_posts, List.map_map, printedBlock]
  apply List.map_congr_left
  intro post _
  simp [Row.raw, Row.render, Post.row, Post.printed]

/- No block has an empty line. -/
theorem headText_ne_empty
    (chained : Bool)
    (b : Block) :
    headText chained b ≠ "" := by
  cases b <;>
    simp [headText, functionText, assignmentText, conditionalText,
      loopText, retText, callText, String.append_eq_empty_iff]

section Text

variable {blocks : List Block}

/- Only a block's own line can be longer than it looks. -/
theorem newline_notMem_of_places
    (hSound : Block.AreSound blocks)
    (hTexts :
      ∀ post ∈ placesAll 0 false blocks,
        '\n' ∉ post.mark.text.toList) :
    ∀ post ∈ postsAll 0 false blocks,
      '\n' ∉ post.mark.text.toList := by
  rintro ⟨depth, mark⟩ hPost
  cases mark with
  | own chained b =>
      apply hTexts
      rw [← ownPosts_postsAll (fun b _ => ownPosts_posts) hSound]
      exact List.mem_filter.mpr ⟨hPost, rfl⟩
  | otherwise body => simp [Mark.text]
  | placeholder => simp [Mark.text, placeholderText]

/- The rows of blocks are their lines. -/
theorem newline_notMem_of_mem_layoutAll
    (hTexts :
      ∀ post ∈ postsAll 0 false blocks,
        '\n' ∉ post.mark.text.toList) :
    ∀ row ∈ layoutAll 0 false blocks, '\n' ∉ row.text.toList := by
  rw [← map_row_postsAll fun b _ => map_row_posts b]
  exact List.forall_mem_map.mpr hTexts

theorem intercalate_ne_empty
    {first : String}
    (hFirst : first ≠ "")
    (separator : String)
    (others : List String) :
    separator.intercalate (first :: others) ≠ "" := by
  cases others with
  | nil => simpa using hFirst
  | cons other others =>
      simp [String.intercalate_cons_cons, hFirst]

/- A program that has blocks has a text. -/
theorem programText_ne_empty
    (width : Nat)
    (b : Block)
    (bs : List Block) :
    programText width (b :: bs) ≠ "" := by
  have hHead := head?_layout 0 false b
  have hFirst :
      "\n".intercalate
          ((layout 0 false b).map (Row.render width)) ≠
        "" := by
    cases hLayout : layout 0 false b with
    | nil => rw [hLayout] at hHead; cases hHead
    | cons row rows =>
        rw [hLayout, List.head?_cons, Option.some.injEq] at hHead
        apply intercalate_ne_empty
        simp [Row.render, hHead, headText_ne_empty]
  exact intercalate_ne_empty hFirst "\n\n" _

/- The text of a program line by line, with a blank line
   between the lines of two blocks. -/
theorem textLines_programText
    (hTexts :
      ∀ post ∈ postsAll 0 false blocks,
        '\n' ∉ post.mark.text.toList)
    (width : Nat) :
    textLines (programText width blocks) =
      List.intercalate [[]] (blocks.map (printedBlock width)) := by
  cases blocks with
  | nil => rfl
  | cons b bs =>
      rw [textLines, if_neg (programText_ne_empty width b bs),
        rawLines_programText
          (newline_notMem_of_mem_layoutAll hTexts),
        printedBlock_eq]

/-
  A program whose else branches are sound and whose texts stay
  on their lines is laid out so.

    * Its lines are those of its blocks, each after `width`
      spaces for every body around it, with a blank line
      between blocks that stand under no other.
    * A header is followed by a line of its body, one level
      deeper, and any other line by one that is no deeper.  A
      placeholder is all that stands under a header, and
      stands where the body has no blocks.
    * Each block has one line of its own, in document order
      and at its place.
    * There are no further lines than those of empty bodies
      and else clauses.
-/
theorem compile_isLaidOut
    (hSound : Block.AreSound blocks)
    (hTexts :
      ∀ post ∈ placesAll 0 false blocks,
        '\n' ∉ post.mark.text.toList)
    (width : Nat) :
    ∃ text,
      compile width blocks = .ok text ∧
        textLines text =
            List.intercalate [[]]
              (blocks.map (printedBlock width)) ∧
          IsLaidOut 0 (postsAll 0 false blocks) ∧
            ownPosts (postsAll 0 false blocks) =
                placesAll 0 false blocks ∧
              ownBlocks (placesAll 0 false blocks) =
                  documentOrder blocks ∧
                (postsAll 0 false blocks).length =
                  (documentOrder blocks).length +
                    emptyBodies blocks +
                      elseClauses blocks := by
  refine ⟨_, compile_of_areSound hSound width, ?_, ?_, ?_, ?_, ?_⟩
  · exact
      textLines_programText
        (newline_notMem_of_places hSound hTexts) width
  · exact isLaidOut_postsAll fun b _ => isLaidOut_posts b 0 false
  · exact
      ownPosts_postsAll (fun b _ => ownPosts_posts) hSound 0 false
  · exact ownBlocks_placesAll (fun b _ => ownBlocks_places b) 0 false
  · rw [length_postsAll (fun b _ => length_posts) hSound,
      sum_ownCount]
    rfl

end Text

/- A function with a chain in it, and a loop without blocks. -/
def placedBlocks : List Block :=
  [ .function "b1" "f" ["x"]
      [ .conditional "b2" "x" [] .elif
          [ .conditional "b3" "y" [.ret "b4" ""] .otherwise
              [] ] ],
    .loop "b5" "i" "xs" [] ]

theorem compile_isLaidOut_placedBlocks :
    compile 2 placedBlocks =
        .ok
          ("def f(x):\n" ++ "  if x:\n" ++ "    pass\n" ++
            "  elif y:\n" ++ "    return None\n" ++
            "  else:\n" ++ "    pass\n\n" ++
            "for i in xs:\n" ++ "  pass") ∧
      IsLaidOut 0 (postsAll 0 false placedBlocks) ∧
        (postsAll 0 false placedBlocks).length = 5 + 3 + 1 := by
  have hSound : Block.AreSound placedBlocks := by
    simp [placedBlocks, Block.Fits, Block.kind]
  have hTexts :
      ∀ post ∈ placesAll 0 false placedBlocks,
        '\n' ∉ post.mark.text.toList := by
    decide +kernel
  rcases compile_isLaidOut hSound hTexts 2 with
    ⟨_, _, _, hLaidOut, _, _, hLength⟩
  exact ⟨rfl, hLaidOut, hLength⟩

end Source

end BlockProgram

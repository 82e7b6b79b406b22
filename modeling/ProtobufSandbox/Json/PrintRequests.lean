import ProtobufSandbox.Json.PrintMemory

/-!
# Requests of the printers

What a printer does depends on the answers to its own requests for memory only. The
writes, reads and releases in between make no requests.
-/

namespace ProtobufSandbox

open Heap

/-! ## Blocks without requests -/

theorem ownAnswers_freeIf (block : Option Block) :
    OwnAnswers fun _ => freeIf block :=
  match block with
  | none => ownAnswers_pure ()
  | some block => ownAnswers_free _ block

theorem ownAnswers_forM_freeIf (blocks : List (Option Block)) :
    OwnAnswers fun _ => blocks.forM freeIf := by
  induction blocks with
  | nil => exact ownAnswers_pure ()
  | cons block blocks inductionHypothesis =>
      exact (ownAnswers_freeIf block).bind fun _ => inductionHypothesis

theorem ownAnswers_write (block : Block) (ptr : Nat) (bytes : Bytes) :
    OwnAnswers fun _ => write block ptr bytes :=
  (ownAnswers_load _ block).bind fun _ =>
    .ite (ownAnswers_store _ block _) (ownAnswers_fail _)

theorem ownAnswers_readString (source : Option Block) :
    OwnAnswers fun _ => readString source := by
  cases source with
  | none => exact ownAnswers_fail _
  | some block =>
      refine (ownAnswers_load _ block).bind fun cells => ?_
      cases stringIn cells with
      | ok text => exact ownAnswers_pure text
      | error fault => exact ownAnswers_fail fault

theorem ownAnswers_copyInto (out : Block) (ptr : Nat) (source : Option Block) :
    OwnAnswers fun _ => copyInto out ptr source :=
  (ownAnswers_readString source).bind fun _ =>
    (ownAnswers_write out ptr _).bind fun _ => ownAnswers_pure _

/-! ## Strings -/

theorem ownAnswers_newString (size : Nat) (text : Bytes) :
    OwnAnswers fun granted => newString granted size text :=
  (ownAnswers_malloc _).bind fun
    | none => ownAnswers_pure _
    | some str => (ownAnswers_write str 0 _).bind fun _ => ownAnswers_pure _

theorem ownAnswers_mallocPointers (numentries : Nat) :
    OwnAnswers fun granted => mallocPointers granted numentries :=
  (ownAnswers_malloc _).bind fun
    | none => ownAnswers_pure _
    | some block => (ownAnswers_write block 0 _).bind fun _ => ownAnswers_pure _

namespace CJSON

theorem ownAnswers_writeEscaped (out : Block) (ptr2 : Nat) (ptr : Bytes) :
    OwnAnswers fun _ => writeEscaped out ptr2 ptr := by
  induction ptr generalizing ptr2 with
  | nil => exact ownAnswers_pure ptr2
  | cons token ptr inductionHypothesis =>
      refine .ite ((ownAnswers_write out ptr2 _).bind fun _ => inductionHypothesis _)
        ((ownAnswers_write out ptr2 _).bind fun _ => ?_)
      cases escapeLetter? token with
      | some letter =>
          exact (ownAnswers_write out _ _).bind fun _ => inductionHypothesis _
      | none => exact (ownAnswers_write out _ _).bind fun _ => inductionHypothesis _

theorem ownAnswers_printNumberIn (item : CJSON) :
    OwnAnswers fun granted => printNumberIn granted item :=
  .ite (ownAnswers_newString 21 _) (ownAnswers_newString 64 _)

theorem ownAnswers_printStringPtrIn (str : Option CString) :
    OwnAnswers fun granted => printStringPtrIn granted str := by
  cases str with
  | none => exact ownAnswers_newString _ _
  | some str =>
      exact (ownAnswers_malloc _).bind fun
        | none => ownAnswers_pure _
        | some out =>
            (ownAnswers_write out 0 _).bind fun _ =>
              (ownAnswers_writeEscaped out 1 _).bind fun ptr2 =>
                (ownAnswers_write out ptr2 _).bind fun _ => ownAnswers_pure _

/-! ## Arrays and objects -/

theorem ownAnswers_composeElements
    (fmt : Bool)
    (out : Block)
    (ptr : Nat)
    (entries : List (Option Block)) :
    OwnAnswers fun _ => composeElements fmt out ptr entries := by
  induction entries generalizing ptr with
  | nil => exact ownAnswers_pure ptr
  | cons entry entries inductionHypothesis =>
      refine (ownAnswers_copyInto out ptr entry).bind fun ptr => .ite ?_ ?_
      · exact (ownAnswers_freeIf entry).bind fun _ => ownAnswers_pure ptr
      · exact (ownAnswers_write out ptr _).bind fun _ =>
          (ownAnswers_freeIf entry).bind fun _ => inductionHypothesis _

theorem ownAnswers_finishArray
    (fmt : Bool)
    (entries : Block)
    (results : List (Option Block))
    (len : Nat)
    (fail : Bool) :
    OwnAnswers fun granted => finishArray granted fmt entries results len fail := by
  -- The output is asked for unless an entry failed.
  refine .ite ((ownAnswers_pure none).bind ?_) ((ownAnswers_malloc _).bind ?_)
  all_goals
    rintro (_ | out)
    · exact (ownAnswers_forM_freeIf results).bind fun _ =>
        (ownAnswers_free _ entries).bind fun _ => ownAnswers_pure _
    · exact (ownAnswers_write out 0 _).bind fun _ =>
        (ownAnswers_composeElements fmt out 1 results).bind fun ptr =>
          (ownAnswers_free _ entries).bind fun _ =>
            (ownAnswers_write out ptr _).bind fun _ => ownAnswers_pure _

theorem ownAnswers_composeMembers
    (depth : Nat)
    (fmt : Bool)
    (out : Block)
    (ptr : Nat)
    (entries : List (Option Block × Option Block)) :
    OwnAnswers fun _ => composeMembers depth fmt out ptr entries := by
  induction entries generalizing ptr with
  | nil => exact ownAnswers_pure ptr
  | cons result entries inductionHypothesis =>
      exact (ownAnswers_write out ptr _).bind fun _ =>
        (ownAnswers_copyInto out _ result.1).bind fun ptr =>
          (ownAnswers_write out ptr _).bind fun _ =>
            (ownAnswers_copyInto out _ result.2).bind fun ptr =>
              (ownAnswers_write out ptr _).bind fun _ =>
                (ownAnswers_freeIf result.1).bind fun _ =>
                  (ownAnswers_freeIf result.2).bind fun _ => inductionHypothesis _

theorem ownAnswers_finishObject
    (depth : Nat)
    (fmt : Bool)
    (entries names : Block)
    (results : List (Option Block × Option Block))
    (len : Nat)
    (fail : Bool) :
    OwnAnswers fun granted =>
      finishObject granted depth fmt entries names results len fail := by
  refine .ite ((ownAnswers_pure none).bind ?_) ((ownAnswers_malloc _).bind ?_)
  all_goals
    rintro (_ | out)
    · exact (ownAnswers_forM_freeIf (pointers results)).bind fun _ =>
        (ownAnswers_free _ names).bind fun _ =>
          (ownAnswers_free _ entries).bind fun _ => ownAnswers_pure _
    · exact (ownAnswers_write out 0 _).bind fun _ =>
        (ownAnswers_composeMembers depth fmt out _ results).bind fun ptr =>
          (ownAnswers_free _ names).bind fun _ =>
            (ownAnswers_free _ entries).bind fun _ =>
              (ownAnswers_write out ptr _).bind fun _ => ownAnswers_pure _

section Entries

variable {items : List CJSON}
variable (own : ∀ item ∈ items, ∀ depth fmt,
  OwnAnswers fun granted => printValueIn granted item depth fmt)

include own

theorem ownAnswers_printElements (depth : Nat) (fmt : Bool) (len : Nat) :
    OwnAnswers fun granted => printElements granted items depth fmt len := by
  induction items generalizing len with
  | nil => exact ownAnswers_pure _
  | cons child children inductionHypothesis =>
      obtain ⟨ownChild, ownChildren⟩ := List.forall_mem_cons.mp own
      exact (ownChild depth fmt).bind fun
        | none => ownAnswers_pure _
        | some ret =>
            (ownAnswers_readString (some ret)).bind fun _ =>
              (inductionHypothesis ownChildren _).bind fun _ => ownAnswers_pure _

theorem ownAnswers_printMembers (depth : Nat) (fmt : Bool) (len : Nat) :
    OwnAnswers fun granted => printMembers granted items depth fmt len := by
  induction items generalizing len with
  | nil => exact ownAnswers_pure _
  | cons child children inductionHypothesis =>
      obtain ⟨ownChild, ownChildren⟩ := List.forall_mem_cons.mp own
      refine (ownAnswers_printStringPtrIn child.string).bind fun str =>
        (ownChild depth fmt).bind fun ret => .ite ?_ ?_
      · exact (ownAnswers_readString ret).bind fun _ =>
          (ownAnswers_readString str).bind fun _ =>
            (inductionHypothesis ownChildren _).bind fun _ => ownAnswers_pure _
      · exact (inductionHypothesis ownChildren len).bind fun _ => ownAnswers_pure _

end Entries

/-! ## Trees -/

theorem ownAnswers_printValueIn (item : CJSON) (depth : Nat) (fmt : Bool) :
    OwnAnswers fun granted => printValueIn granted item depth fmt := by
  induction item using CJSON.induction generalizing depth fmt with
  | node item inductionHypothesis =>
      obtain ⟨child, type, valuestring, valueint, valuedouble, string⟩ := item
      cases type with
      | null | false | true => exact ownAnswers_newString _ _
      | number => exact ownAnswers_printNumberIn _
      | string => exact ownAnswers_printStringPtrIn valuestring
      | array =>
          refine .ite (ownAnswers_newString 3 _) ?_
          exact (ownAnswers_mallocPointers child.length).bind fun
            | none => ownAnswers_pure _
            | some entries =>
                (ownAnswers_printElements inductionHypothesis (depth + 1) fmt 5).bind
                  fun printed => ownAnswers_finishArray fmt entries printed.1 printed.2.1
                    printed.2.2
      | object =>
          refine .ite (ownAnswers_newString _ _) ?_
          exact (ownAnswers_malloc _).bind fun
            | none => ownAnswers_pure _
            | some entries => (ownAnswers_malloc _).bind fun
              | none => (ownAnswers_free _ entries).bind fun _ => ownAnswers_pure _
              | some names =>
                  (ownAnswers_write entries 0 _).bind fun _ =>
                    (ownAnswers_write names 0 _).bind fun _ =>
                      (ownAnswers_printMembers inductionHypothesis (depth + 1) fmt _).bind
                        fun printed => ownAnswers_finishObject (depth + 1) fmt entries names
                          printed.1 printed.2.1 printed.2.2

end CJSON
end ProtobufSandbox

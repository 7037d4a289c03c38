import BlockProgram.Block.Equality
import BlockProgram.Block.Ladder
import BlockProgram.Main
import BlockProgram.Session
import BlockProgram.Proofs.Boundary.Replies
import BlockProgram.Proofs.Edit.Commuting
import BlockProgram.Proofs.Edit.Pasting
import BlockProgram.Proofs.Scope.Below
import BlockProgram.Proofs.Session.Own
import BlockProgram.Proofs.Source.Indentation
import BlockProgram.Proofs.Source.Ladder
import BlockProgram.Proofs.Source.Lossless
import BlockProgram.Proofs.Source.Printing
import BlockProgram.Proofs.Source.Reformatting
import BlockProgram.Proofs.Source.Refusals
import BlockProgram.Proofs.Source.RoundTrip
import BlockProgram.Proofs.Source.Spacing
import BlockProgram.Proofs.Wire.Reencoding
import BlockProgram.Proofs.Wire.Spellings
import BlockProgram.Proofs.Source.Joining
import BlockProgram.Proofs.Source.Recognition
import BlockProgram.Proofs.Source.Spelled
import BlockProgram.Proofs.Value.Unambiguous
import BlockProgram.Proofs.Block.Verdict
import BlockProgram.Proofs.Edit.Settling
import BlockProgram.Proofs.Value.Shortening
import BlockProgram.Proofs.Source.Pointing
import BlockProgram.Proofs.Value.Repeats

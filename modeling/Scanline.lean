import Scanline.Blit.Oriented
import Scanline.Fuzz.BoxTrial
import Scanline.Fuzz.Campaign
import Scanline.Fuzz.CircleTrial
import Scanline.Fuzz.CopyTrial
import Scanline.Fuzz.Rules
import Scanline.Fuzz.Shrink
import Scanline.Fuzz.Smoke
import Scanline.Proofs.Blit.Oriented
import Scanline.Proofs.Pixmap.Contained
import Scanline.Proofs.Pixmap.RawAccess
import Scanline.Proofs.Screen.Batch
import Scanline.Proofs.Screen.Display
import Scanline.Proofs.Shape.Octant
import Scanline.Safety
import Scanline.Screen
import Scanline.Proofs.Format.Admission
import Scanline.Proofs.Pixmap.Circle
import Scanline.Proofs.Box.Laws
import Scanline.Proofs.Fuzz.Reading
import Scanline.Proofs.Fuzz.Boxes
import Scanline.Proofs.Fuzz.Specimens
import Scanline.Proofs.Fuzz.Circles
import Scanline.Proofs.Fuzz.Copies
import Scanline.Proofs.Fuzz.Trials
import Scanline.Proofs.Fuzz.Calls
import Scanline.Proofs.Fuzz.Corpus
import Scanline.Proofs.Fuzz.Mutation
import Scanline.Proofs.Fuzz.Accounts
import Scanline.Proofs.Fuzz.Requests
import Scanline.Proofs.Pixmap.Disk
import Scanline.Proofs.Pixmap.Line
import Scanline.Proofs.Pixmap.Tetragon
import Scanline.Proofs.Pixmap.Rect
import Scanline.Proofs.Blit.Checked
import Scanline.Proofs.Pixmap.OrientedRect
import Scanline.Proofs.Box.Order
import Scanline.Proofs.Box.Union
import Scanline.Proofs.Box.Shift
import Scanline.Proofs.Pixmap.OrientedCircle
import Scanline.Proofs.Format.Widening
import Scanline.Proofs.Format.Formula
import Scanline.Proofs.Pixmap.Creation
import Scanline.Proofs.Fuzz.Shrinking
import Scanline.Proofs.Fuzz.Candidates
import Scanline.Proofs.Fuzz.Questions
import Scanline.Proofs.Fuzz.Attempts
import Scanline.Proofs.Fuzz.Minimality
import Scanline.Proofs.Fuzz.Splicing
import Scanline.Proofs.Machine.Exact

import Chip8.Frame.Bitmap
import Chip8.Main
import Chip8.Proofs.Step
import Chip8.Proofs.CatchUp
import Chip8.Proofs.PollPattern
import Chip8.Proofs.Journal
import Chip8.Proofs.TickSchedule
import Chip8.Proofs.Decode
import Chip8.Proofs.History
import Chip8.Proofs.WellFormed
import Chip8.Proofs.Checked
import Chip8.Proofs.Outcome
import Chip8.Proofs.Standstill
import Chip8.Proofs.KeyWait
import Chip8.Proofs.HostMap
import Chip8.Proofs.Sound
import Chip8.Proofs.Account
import Chip8.Proofs.Loading
import Chip8.Proofs.Calls
import Chip8.Proofs.Encode
import Chip8.Proofs.IndexBits
import Chip8.Proofs.TimerReach
import Chip8.Proofs.Playing
import Chip8.Proofs.SessionPolls
import Chip8.Proofs.Sprite
import Chip8.Proofs.KeyHold
import Chip8.Proofs.Arithmetic
import Chip8.Proofs.Footprint
import Chip8.Proofs.RandomBytes
import Chip8.Proofs.Stores
import Chip8.Proofs.SpriteParity
import Chip8.Proofs.Delivery
import Chip8.Proofs.KeyRelease
import Chip8.Proofs.Targets
import Chip8.Proofs.RomReading
import Chip8.Proofs.KeystrokeText
import Chip8.Proofs.Packing
import Chip8.Proofs.Magnifying

import SixGrok.Api.Limits
import SixGrok.Api.History
import SixGrok.Api.Live
import SixGrok.Api.Delivery
import SixGrok.Api.WebSocket
import SixGrok.Api.Stats
import SixGrok.Api.Datagrams
import SixGrok.Agent.Namespaces
import SixGrok.Agent.Serial
import SixGrok.Agent.RawCapture
import SixGrok.Agent.Frames
import SixGrok.Qualcomm.Masks
import SixGrok.Qualcomm.Reject
import SixGrok.Qualcomm.Validation
import SixGrok.Qualcomm.Wait
import SixGrok.Qualcomm.Logged
import SixGrok.Qualcomm.Probed
import SixGrok.Samsung.Limits
import SixGrok.Samsung.Resync
import SixGrok.Samsung.RoundTrip
import SixGrok.Samsung.Selection
import SixGrok.Samsung.Session
